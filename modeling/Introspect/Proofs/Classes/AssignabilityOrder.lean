import Introspect.Proofs.Classes.Answers
import Introspect.Proofs.Classes.Ancestry

/-!
Assignability as an order on class ids.

A search for supertypes that fails answers no, `Object` is above classes whose closure does not list it, and
an id without a class is still below itself. All the same the relation is a preorder over every table that
declarations lead to, and a partial order where no class is its own strict subtype.

* `isAssignable_iff`: assignability without the search.
* `Rooted.eq_object_of_reaches`: nothing lies above `Object`.
* `isAssignable_trans`, `isAssignable_antisymm`: the laws, one by one.
* `assignability_preorder`: all of them, for every table that grows from the built-in one.
-/

namespace Introspect.ClassTable

open Relation

variable {t : ClassTable}

/-! ## Assignability without the search -/

theorem hasSupertype_iff {source target : ClassId} :
    t.hasSupertype source target = true ↔
      ∃ cs, t.supertypes source = .ok cs ∧ ReflTransGen t.Direct source target := by
  unfold hasSupertype
  cases hcs : t.supertypes source with
  | error e => simp
  | ok cs => simp [reaches_iff_of_supertypes hcs]

/-- The source is the target, or a class without a strict primitive's slots whose closure is complete and
leads to the target; `Object` needs no closure. -/
theorem isAssignable_iff {target source : ClassId} :
    t.isAssignable target source = true ↔
      target = source ∨
        ∃ c, t.find? source = some c ∧ c.isStrictPrimitive = false ∧
          (target = .object ∨
            ∃ cs, t.supertypes source = .ok cs ∧ ReflTransGen t.Direct source target) := by
  unfold isAssignable
  by_cases hsame : target = source
  · simp [hsame]
  cases hc : t.find? source with
  | none => simp [hsame]
  | some c =>
    cases hp : c.isStrictPrimitive with
    | true => simp [hsame, hp]
    | false =>
      by_cases ho : target = .object
      · simp [ho, hp]
      · simp [hsame, ho, hp, hasSupertype_iff]

/-! ## Above `Object` -/

theorem Rooted.not_direct (hroot : t.Rooted) (id : ClassId) : ¬ t.Direct .object id := by
  rintro ⟨c, hc, hmem⟩
  obtain ⟨o, ho, hnone⟩ := hroot
  cases hc.symm.trans ho
  rw [hnone] at hmem
  cases hmem

theorem Rooted.eq_object_of_reaches (hroot : t.Rooted) {id : ClassId}
    (h : ReflTransGen t.Direct .object id) : id = .object := by
  rcases h.cases_head with heq | ⟨next, hnext, -⟩
  · exact heq.symm
  · exact absurd hnext (hroot.not_direct next)

/-! ## The laws -/

theorem isAssignable_refl (t : ClassTable) (a : ClassId) : t.isAssignable a a = true :=
  isAssignable_iff.2 (.inl rfl)

theorem isAssignable_trans (hroot : t.Rooted) {a b c : ClassId} (hcb : t.isAssignable c b = true)
    (hba : t.isAssignable b a = true) : t.isAssignable c a = true := by
  rcases isAssignable_iff.1 hba with rfl | ⟨d, hd, hstrict, habove⟩
  · exact hcb
  rcases isAssignable_iff.1 hcb with rfl | ⟨-, -, -, hcb⟩
  · exact hba
  refine isAssignable_iff.2 (.inr ⟨d, hd, hstrict, ?_⟩)
  rcases hcb with rfl | ⟨-, -, hbc⟩
  · exact .inl rfl
  rcases habove with rfl | ⟨cs, hcs, hab⟩
  · exact .inl (hroot.eq_object_of_reaches hbc)
  · exact .inr ⟨cs, hcs, hab.trans hbc⟩

theorem isAssignable_antisymm (hroot : t.Rooted) (hacyclic : t.Acyclic) {a b : ClassId}
    (hab : t.isAssignable a b = true) (hba : t.isAssignable b a = true) : a = b := by
  rcases isAssignable_iff.1 hab with heq | ⟨-, -, -, hab⟩
  · exact heq
  rcases isAssignable_iff.1 hba with heq | ⟨-, -, -, hba⟩
  · exact heq.symm
  rcases hab with rfl | ⟨-, -, hup⟩
  · -- what is above `Object` is `Object`
    rcases hba with rfl | ⟨-, -, hdown⟩
    · rfl
    · exact (hroot.eq_object_of_reaches hdown).symm
  rcases hba with rfl | ⟨-, -, hdown⟩
  · exact hroot.eq_object_of_reaches hup
  by_contra hne
  rcases reflTransGen_iff_eq_or_transGen.1 hup with heq | hup
  · exact hne heq
  · exact hacyclic b (hup.trans_left hdown)

/-! ## Tables that declarations lead to -/

/-- Over every table that declarations and array classes lead to, complete or not, assignability is
reflexive and transitive; it is antisymmetric when no class is its own strict subtype, for `Object` has no
supertypes in such a table. -/
theorem assignability_preorder {t : ClassTable} {additions : List Addition}
    (h : builtin.grown additions = .ok t) :
    (∀ a, t.isAssignable a a = true) ∧
      (∀ a b c, t.isAssignable c b = true → t.isAssignable b a = true → t.isAssignable c a = true) ∧
      (∀ b, ¬ t.Direct .object b) ∧
      (t.Acyclic →
        ∀ a b, t.isAssignable a b = true → t.isAssignable b a = true → a = b) := by
  have hroot : t.Rooted := builtin_rooted.within (grown_within h)
  exact ⟨isAssignable_refl t, fun _ _ _ => isAssignable_trans hroot, hroot.not_direct,
    fun hacyclic _ _ => isAssignable_antisymm hroot hacyclic⟩

/-- Classes of a drawing, declared from the bottom up. -/
def drawing : List Addition :=
  [.declare ((Declaration.plain ⟨"Square"⟩).withSuperclass (.named ⟨"Figure"⟩)),
    .declare ((Declaration.plain ⟨"Figure"⟩).withInterface (.named ⟨"Shape"⟩)),
    .declare (.interface ⟨"Shape"⟩),
    .arrayOf (.named ⟨"Square"⟩)]

def drawingTable : ClassTable :=
  match builtin.grown drawing with
  | .ok t => t
  | .error _ => builtin

/-- Distance from the classes without supertypes. -/
def drawingRank (id : ClassId) : Nat :=
  if id ∈ [.object, .list, .map, ⟨"Shape"⟩] then 0
  else if id = ⟨"Square"⟩ then 2 else 1

theorem assignability_preorder_drawing :
    builtin.grown drawing = .ok drawingTable ∧
      drawingTable.isAssignable ⟨"Shape"⟩ ⟨"Figure"⟩ = true ∧
      drawingTable.isAssignable ⟨"Figure"⟩ ⟨"Square"⟩ = true ∧
      drawingTable.isAssignable ⟨"Shape"⟩ ⟨"Square"⟩ = true ∧
      drawingTable.Acyclic ∧ drawingTable.isAssignable ⟨"Square"⟩ ⟨"Shape"⟩ = false := by
  have hgrown : builtin.grown drawing = .ok drawingTable := rfl
  have hacyclic : drawingTable.Acyclic := .of_rank drawingRank (by decide +kernel)
  have hshape : drawingTable.isAssignable ⟨"Shape"⟩ ⟨"Figure"⟩ = true := by decide +kernel
  have hfigure : drawingTable.isAssignable ⟨"Figure"⟩ ⟨"Square"⟩ = true := by decide +kernel
  obtain ⟨-, htrans, -, hantisymm⟩ := assignability_preorder hgrown
  have hsquare := htrans ⟨"Square"⟩ ⟨"Figure"⟩ ⟨"Shape"⟩ hshape hfigure
  refine ⟨hgrown, hshape, hfigure, hsquare, hacyclic, Bool.eq_false_iff.2 fun hback => ?_⟩
  have hsame := hantisymm hacyclic ⟨"Square"⟩ ⟨"Shape"⟩ hback hsquare
  exact absurd hsame (by decide)

end Introspect.ClassTable
