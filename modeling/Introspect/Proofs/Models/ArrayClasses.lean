import Introspect.Proofs.Models.Runs
import Introspect.Proofs.Types.Display
import Mathlib.Data.List.Induction

/-!
Array classes are known by the text of their component.

The id of an array class is written into the texts of larger types, of which there are array classes in
turn. Where the other classes have plain ids, the text of a type still tells what it was written from, so
that no component takes the place of another.

* `Store.Declares`: the classes that a run declares.
* `class_origin`: where the classes of a reachable table come from.
* `Legible.tidy`: the ids of a table whose array classes spell what they hold.
* `array_classes_distinct`: the array class of a component is that of no other one.
* `array_class_taken`: a type argument that no class has may look like two.
-/

namespace Introspect

/-! ## Legible tables -/

namespace ClassTable

/-- A concrete type whose ids are those of classes of the table, or plain. -/
def Spells (t : ClassTable) (ty : TypeExpr) : Prop :=
  ty.isConcrete = true ∧ ∀ id ∈ ty.ids, t.contains id = true ∨ id.IsPlain

instance (t : ClassTable) (ty : TypeExpr) : Decidable (t.Spells ty) :=
  inferInstanceAs (Decidable (_ ∧ _))

/-- Every class has a plain id, or is the array class of a component that the table spells. -/
def Legible (t : ClassTable) : Prop :=
  ∀ id c, t.find? id = some c → id.IsPlain ∨ ∃ component, c = arrayClass component ∧ t.Spells component

theorem arrayId_toList (component : TypeExpr) :
    (arrayId component).name.toList = component.display.toList ++ ['[', ']'] := by
  simp [arrayId]

theorem arrayId_not_plain (component : TypeExpr) : ¬ (arrayId component).IsPlain := by
  intro h
  refine h.2 '[' ?_ (by decide)
  rw [arrayId_toList]
  simp

theorem arrayId_tidy {component : TypeExpr} (h : component.IsTidy) : (arrayId component).IsTidy where
  ne_nil := by rw [arrayId_toList]; simp
  nested := by
    rw [arrayId_toList]
    exact (TypeExpr.display_nested component h).append (.of_flat (by simp [bracketWeight]) (by simp))
  open_end := by rw [arrayId_toList]; simp

variable {t : ClassTable}

/-- The ids in the component of an array class are shorter than its own. -/
theorem Legible.tidy (h : t.Legible) {id : ClassId} (hid : t.contains id = true ∨ id.IsPlain) :
    id.IsTidy := by
  induction hn : id.name.toList.length using Nat.strongRecOn generalizing id with
  | ind n ih =>
    rcases hid with hid | hplain
    · obtain ⟨c, hc⟩ := contains_iff.1 hid
      rcases h id c hc with hplain | ⟨component, rfl, hconcrete, hids⟩
      · exact hplain.tidy
      · have harray : id = arrayId component := (find?_id hc).symm
        rw [harray, arrayId_toList, List.length_append] at hn
        rw [harray]
        refine arrayId_tidy ⟨hconcrete, fun inner hinner => ih _ ?_ (hids inner hinner) rfl⟩
        have hle := TypeExpr.length_le_display component hconcrete hinner
        simp only [List.length_cons, List.length_nil] at hn
        omega
    · exact hplain.tidy

theorem Legible.type_tidy (h : t.Legible) {ty : TypeExpr} (hty : t.Spells ty) : ty.IsTidy :=
  ⟨hty.1, fun id hid => h.tidy (hty.2 id hid)⟩

theorem Legible.display_injective (h : t.Legible) {a b : TypeExpr} (ha : t.Spells a)
    (hb : t.Spells b) (hdisplay : a.display = b.display) : a = b :=
  TypeExpr.display_injective a b (h.type_tidy ha) (h.type_tidy hb) hdisplay

theorem arrayId_injective {a b : TypeExpr} (h : arrayId a = arrayId b) : a.display = b.display := by
  have hlist := congrArg (fun id => id.name.toList) h
  simp only [arrayId_toList] at hlist
  exact String.toList_inj.1 (List.append_cancel_right hlist)

/-- What is under the id of a component is its array class, made now or before. -/
theorem Legible.find?_arrayOf (h : t.Legible) {component : TypeExpr} {id : ClassId} {u : ClassTable}
    (hspells : t.Spells component) (harray : arrayOf component t = .ok id u) :
    ∃ c, u.find? id = some c ∧ c.kind = .array component := by
  obtain ⟨rfl, rfl, -⟩ := arrayOf_eq_ok harray
  cases hc : t.find? (arrayId component) with
  | none =>
    refine ⟨arrayClass component, ?_, rfl⟩
    have hnew : ¬ t.contains (arrayClass component).id = true := by
      intro hin
      obtain ⟨c, hfound⟩ := contains_iff.1 hin
      cases hc.symm.trans hfound
    rw [intern, if_neg hnew]
    exact List.find?_cons_of_pos (decide_eq_true rfl)
  | some c =>
    refine ⟨c, intern_grows t _ _ _ hc, ?_⟩
    rcases h _ c hc with hplain | ⟨other, rfl, hother⟩
    · exact absurd hplain (arrayId_not_plain component)
    · have hsame := arrayId_injective (find?_id hc : arrayId other = arrayId component)
      rw [h.display_injective hother hspells hsame]
      rfl

end ClassTable

/-! ## Where classes come from -/

/-- The class is declared in the course of the run. -/
def Store.Declares (config : Config) (ops : List Operation) (c : Class) : Prop :=
  ∃ before later, ops = before ++ .define c :: later ∧
    (reached config before).registry.classes.contains c.id = false

theorem perform_classes (op : Operation) {s : Store} (hv : s.registry.Valid) :
    (∃ c, op = .define c ∧ s.registry.classes.contains c.id = false ∧
        (op.perform s).registry.classes = ⟨c.normalize :: s.registry.classes.classes⟩) ∨
      s.registry.classes.Extends (op.perform s).registry.classes := by
  cases op with
  | define c =>
    have hclasses : ((Operation.define c).perform s).registry.classes =
        (after (Registry.define c) s.registry).classes := by
      show (after (discard (Store.onRegistry (Registry.define c))) s).registry.classes = _
      rw [after_discard, Store.after_onRegistry]
    rw [hclasses]
    unfold after
    rw [Registry.define_apply]
    unfold ClassTable.define
    cases hin : s.registry.classes.contains c.id with
    | true =>
      rw [if_pos rfl]
      exact .inr (ClassTable.Extends.refl _)
    | false =>
      rw [if_neg (by decide)]
      exact .inl ⟨c, rfl, hin, rfl⟩
  | registerCodec id codec => exact .inr (ClassTable.Extends.refl _)
  | setConfig config => exact .inr (ClassTable.Extends.refl _)
  | _ => exact .inr ((perform_step _ hv).calm rfl).classes

/-- A class of a reachable table is built in, was declared, or is an array class. -/
theorem class_origin (config : Config) (ops : List Operation) {id : ClassId} {c : Class}
    (hc : (reached config ops).registry.classes.find? id = some c) :
    ClassTable.builtin.find? id = some c ∨
      (∃ d, Store.Declares config ops d ∧ d.id = id) ∨ ∃ component, c = ClassTable.arrayClass component := by
  induction ops using List.reverseRecOn generalizing id c with
  | nil => exact .inl hc
  | append_singleton ops op ih =>
    have hrun : reached config (ops ++ [op]) = op.perform (reached config ops) := by
      rw [reached_through, Store.run_nil]
    rw [hrun] at hc
    -- what was there before
    have earlier : ∀ {id c}, (reached config ops).registry.classes.find? id = some c →
        ClassTable.builtin.find? id = some c ∨
          (∃ d, Store.Declares config (ops ++ [op]) d ∧ d.id = id) ∨
            ∃ component, c = ClassTable.arrayClass component := by
      intro id c hc
      refine (ih hc).imp_right (Or.imp_left ?_)
      rintro ⟨d, ⟨before, later, rfl, hnew⟩, hid⟩
      exact ⟨d, ⟨before, later ++ [op], by simp, hnew⟩, hid⟩
    rcases perform_classes op (reached_valid config ops) with ⟨d, rfl, hnew, hclasses⟩ | hextends
    · rw [hclasses] at hc
      by_cases hid : d.id = id
      · exact .inr (.inl ⟨d, ⟨ops, [], rfl, hnew⟩, hid⟩)
      · rw [ClassTable.find?_cons_of_ne (by rwa [ClassTable.normalize_id])] at hc
        exact earlier hc
    · rcases hextends.arrays id c hc with hc | harray
      · exact earlier hc
      · exact .inr (.inr harray)

theorem ClassTable.builtin_plain : ∀ c ∈ ClassTable.builtin.classes, c.id.IsPlain := by
  decide +kernel

/-! ## Array classes -/

/-- In a run that declares classes with plain ids only, and array classes for components only that its
table spells, types that the table spells show different texts; two components have different array
classes, and the array class of a component has that component, now and later on. -/
theorem array_classes_distinct {config : Config} {ops : List Operation} {t : ClassTable}
    (ht : t = (reached config ops).registry.classes)
    (hdeclared : ∀ c, Store.Declares config ops c → c.id.IsPlain)
    (harrays : ∀ id component, t.find? id = some (ClassTable.arrayClass component) →
      t.Spells component) :
    (∀ a b, t.Spells a → t.Spells b → a.display = b.display → a = b) ∧
      (∀ a b id u v, t.Spells a → t.Spells b → ClassTable.arrayOf a t = .ok id u →
        ClassTable.arrayOf b t = .ok id v → a = b) ∧
      ∀ component id u, t.Spells component → ClassTable.arrayOf component t = .ok id u →
        ∀ later, u.Within later → ∃ c, later.find? id = some c ∧ c.kind = .array component := by
  subst ht
  have hlegible : (reached config ops).registry.classes.Legible := by
    intro id c hc
    rcases class_origin config ops hc with hbuiltin | ⟨d, hd, rfl⟩ | ⟨component, rfl⟩
    · rw [← ClassTable.find?_id hbuiltin]
      exact .inl (ClassTable.builtin_plain c (ClassTable.mem_of_find? hbuiltin))
    · exact .inl (hdeclared d hd)
    · exact .inr ⟨component, rfl, harrays id component hc⟩
  refine ⟨fun a b => hlegible.display_injective, fun a b id u v ha hb hu hv => ?_,
    fun component id u hspells harray later hlater => ?_⟩
  · obtain ⟨rfl, -, -⟩ := ClassTable.arrayOf_eq_ok hu
    exact hlegible.display_injective ha hb
      (ClassTable.arrayId_injective (ClassTable.arrayOf_eq_ok hv).1)
  · obtain ⟨c, hc, hkind⟩ := hlegible.find?_arrayOf hspells harray
    exact ⟨c, hlater id c hc, hkind⟩

/-! ## Arrays of decks -/

/-- Names of cards with their values. -/
def deck : TypeExpr := .mapOf (.named ⟨"Card"⟩) (.named ⟨"Integer"⟩)

def shelfOfDecks : TypeExpr := .listOf (.named ⟨"Map<Card, Integer>[]"⟩)

/-- An array class for a parameterization, one for its arrays, and one for a parameterization of those. -/
def deckOps : List Operation :=
  [.define (Class.bare ⟨"Card"⟩ .plain), .arrayOf deck, .arrayOf (.named ⟨"Map<Card, Integer>[]"⟩),
    .arrayOf shelfOfDecks]

/-- The components that the table has array classes for. -/
theorem component_of_found {t : ClassTable} {id : ClassId} {component : TypeExpr}
    (h : t.find? id = some (ClassTable.arrayClass component)) :
    component ∈ t.classes.filterMap Class.component? :=
  List.mem_filterMap.2 ⟨_, ClassTable.mem_of_find? h, rfl⟩

theorem array_classes_distinct_decks :
    let t := (reached {} deckOps).registry.classes
    (∀ c, Store.Declares {} deckOps c → c.id.IsPlain) ∧
      (∀ id component, t.find? id = some (ClassTable.arrayClass component) → t.Spells component) ∧
      t.Spells shelfOfDecks ∧
      ∃ u, ClassTable.arrayOf shelfOfDecks t = .ok ⟨"List<Map<Card, Integer>[]>[]"⟩ u ∧
        ∃ c, u.find? ⟨"List<Map<Card, Integer>[]>[]"⟩ = some c ∧ c.kind = .array shelfOfDecks := by
  intro t
  have hdeclared : ∀ c, Store.Declares {} deckOps c → c.id.IsPlain := by
    rintro c ⟨before, later, hops, -⟩
    have hmem : Operation.define c ∈ deckOps := by simp [hops]
    obtain rfl : c = Class.bare ⟨"Card"⟩ .plain := by simpa [deckOps] using hmem
    decide
  have hspelled : ∀ component ∈ t.classes.filterMap Class.component?, t.Spells component := by
    decide +kernel
  have harrays : ∀ id component, t.find? id = some (ClassTable.arrayClass component) →
      t.Spells component := fun _ component h => hspelled component (component_of_found h)
  have hshelf : t.Spells shelfOfDecks := by decide +kernel
  have hmade : ClassTable.arrayOf shelfOfDecks t = .ok ⟨"List<Map<Card, Integer>[]>[]"⟩ _ :=
    eq_ok_of_outcome (by decide +kernel)
  obtain ⟨-, -, hkind⟩ := @array_classes_distinct {} deckOps t rfl hdeclared harrays
  exact ⟨hdeclared, harrays, hshelf, _, hmade,
    hkind shelfOfDecks _ _ hshelf hmade _ (ClassTable.Within.refl _)⟩

/-- One argument that no class has, and two arguments that it looks like. -/
theorem array_class_taken :
    let one : TypeExpr := .apply .map [.named ⟨"String, Integer"⟩]
    let two : TypeExpr := .mapOf (.named .string) (.named ⟨"Integer"⟩)
    let ops : List Operation := [.arrayOf one]
    let t := (reached {} ops).registry.classes
    (∀ c, Operation.define c ∉ ops) ∧
      (∀ component ∈ t.classes.filterMap Class.component?, component.isConcrete = true) ∧
      two.isConcrete = true ∧ (∀ id ∈ two.ids, t.contains id = true) ∧ one ≠ two ∧
      ∃ u v c, ClassTable.arrayOf one t = .ok ⟨"Map<String, Integer>[]"⟩ u ∧
        ClassTable.arrayOf two t = .ok ⟨"Map<String, Integer>[]"⟩ v ∧
        v.find? ⟨"Map<String, Integer>[]"⟩ = some c ∧ c.kind = .array one := by
  intro one two ops t
  have hone : ClassTable.arrayOf one t = .ok ⟨"Map<String, Integer>[]"⟩ t := rfl
  have htwo : ClassTable.arrayOf two t = .ok ⟨"Map<String, Integer>[]"⟩ t := rfl
  exact ⟨by simp [ops], by decide +kernel, rfl, by decide +kernel, by decide, t, t,
    ClassTable.arrayClass one, hone, htwo, rfl, rfl⟩

end Introspect
