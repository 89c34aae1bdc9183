import Introspect.Proofs.Classes.Mentions

/-!
The text of a concrete type can be read in one way only.

A type shows its class, then its arguments between brackets, with commas between them. The id of a class
may hold brackets and commas itself, as that of an array class does, but what it opens it closes again,
its commas stand between brackets, and it does not end as a parameterization does. Such ids are tidy; texts
of types that name tidy ids only are unambiguous.

* `depth`, `Balanced`, `Nested`: brackets of a text.
* `Nested.first_unique`, `Balanced.last_bracket_unique`: where an argument ends and where the arguments
  begin.
* `display_nested`: the text of a tidy type.
* `display_injective`: types with the same text are the same.
-/

namespace Introspect

/-! ## Brackets -/

/-- The characters that separate the parts of a type in its text. -/
def separators : List Char := ['<', '>', ',', '[', ']']

def bracketWeight (c : Char) : Int := if c = '<' then 1 else if c = '>' then -1 else 0

/-- The brackets that a text opens and does not close. -/
def depth : List Char → Int
  | [] => 0
  | c :: w => bracketWeight c + depth w

@[simp]
theorem depth_nil : depth [] = 0 := rfl

@[simp]
theorem depth_cons (c : Char) (w : List Char) : depth (c :: w) = bracketWeight c + depth w := rfl

@[simp]
theorem depth_append (u v : List Char) : depth (u ++ v) = depth u + depth v := by
  induction u with
  | nil => simp
  | cons c u ih =>
    rw [List.cons_append, depth_cons, depth_cons, ih]
    omega

/-- A text that closes the brackets it opens, and no other. -/
structure Balanced (w : List Char) : Prop where
  depth_eq : depth w = 0
  depth_nonneg : ∀ u v, w = u ++ v → 0 ≤ depth u

/-- A balanced text whose commas stand between brackets. -/
structure Nested (w : List Char) : Prop extends Balanced w where
  comma_inside : ∀ u v, w = u ++ ',' :: v → 0 < depth u

theorem depth_of_flat {w : List Char} (h : ∀ c ∈ w, bracketWeight c = 0) : depth w = 0 := by
  induction w with
  | nil => rfl
  | cons c w ih =>
    rw [depth_cons, h c List.mem_cons_self, ih fun d hd => h d (List.mem_cons_of_mem c hd)]
    rfl

theorem Balanced.of_flat {w : List Char} (h : ∀ c ∈ w, bracketWeight c = 0) : Balanced w where
  depth_eq := depth_of_flat h
  depth_nonneg _ v hw :=
    Int.le_of_eq (depth_of_flat fun c hc => h c (hw ▸ List.mem_append_left v hc)).symm

theorem Nested.of_flat {w : List Char} (h : ∀ c ∈ w, bracketWeight c = 0) (hcomma : ',' ∉ w) :
    Nested w where
  toBalanced := .of_flat h
  comma_inside u v hw := absurd (by simp [hw]) hcomma

theorem Balanced.append {x y : List Char} (hx : Balanced x) (hy : Balanced y) :
    Balanced (x ++ y) where
  depth_eq := by rw [depth_append, hx.depth_eq, hy.depth_eq, Int.add_zero]
  depth_nonneg u v huv := by
    rcases List.append_eq_append_iff.1 huv.symm with ⟨z, hz, -⟩ | ⟨z, rfl, hz⟩
    · exact hx.depth_nonneg u z hz
    · rw [depth_append, hx.depth_eq, Int.zero_add]
      exact hy.depth_nonneg z v hz

theorem Nested.append {x y : List Char} (hx : Nested x) (hy : Nested y) : Nested (x ++ y) where
  toBalanced := hx.toBalanced.append hy.toBalanced
  comma_inside u v huv := by
    rcases List.append_eq_append_iff.1 huv.symm with ⟨z, hz, hcomma⟩ | ⟨z, rfl, hz⟩
    · cases z with
      | nil =>
        -- the comma begins the second text, outside of every bracket
        have hin := hy.comma_inside [] v (by simpa using hcomma.symm)
        exact absurd hin (Int.lt_irrefl 0)
      | cons c z =>
        cases hcomma
        exact hx.comma_inside u z hz
    · rw [depth_append, hx.depth_eq, Int.zero_add]
      exact hy.comma_inside z v hz

/-- Brackets around a balanced text. -/
theorem Balanced.wrap {w : List Char} (h : Balanced w) : Nested ('<' :: (w ++ ['>'])) := by
  -- the text but for its last bracket, up to any place after the first
  have inside : ∀ u v, w ++ ['>'] = u ++ v → v ≠ [] → 0 ≤ depth u := by
    intro u v huv hv
    rcases List.append_eq_append_iff.1 huv.symm with ⟨z, hz, -⟩ | ⟨z, rfl, hz⟩
    · exact h.depth_nonneg u z hz
    · cases z with
      | nil => simp [h.depth_eq]
      | cons c z =>
        have hlen := congrArg List.length hz
        simp only [List.length_cons, List.length_nil, List.length_append] at hlen
        exact absurd (List.eq_nil_of_length_eq_zero (by omega)) hv
  refine ⟨⟨by simp [h.depth_eq, bracketWeight], fun u v huv => ?_⟩, fun u v huv => ?_⟩
  · cases u with
    | nil => exact Int.le_refl 0
    | cons c u =>
      obtain ⟨rfl, hrest⟩ := List.cons.inj huv
      cases v with
      | nil =>
        have hu : w ++ ['>'] = u := hrest.trans (List.append_nil u)
        simp [← hu, h.depth_eq, bracketWeight]
      | cons d v =>
        have hu := inside u (d :: v) hrest (by simp)
        rw [depth_cons, bracketWeight, if_pos rfl]
        omega
  · cases u with
    | nil => cases huv
    | cons c u =>
      obtain ⟨rfl, hrest⟩ := List.cons.inj huv
      have hu := inside u (',' :: v) hrest (by simp)
      rw [depth_cons, bracketWeight, if_pos rfl]
      omega

/-! ## Where the parts end -/

/-- The rest of an argument list: nothing, or a comma and more. -/
def AtComma (w : List Char) : Prop := w = [] ∨ ∃ v, w = ',' :: v

theorem Nested.not_longer {x y z : List Char} (hx : Nested x) (hxy : Nested (x ++ y))
    (hz : AtComma z) {r : List Char} (h : z = y ++ r) : y = [] := by
  cases y with
  | nil => rfl
  | cons c y =>
    rcases hz with rfl | ⟨v, rfl⟩
    · cases h
    · cases h
      have hin := hxy.comma_inside x y rfl
      rw [hx.depth_eq] at hin
      exact absurd hin (Int.lt_irrefl 0)

/-- An argument ends where its rest begins. -/
theorem Nested.first_unique {x x' r r' : List Char} (hx : Nested x) (hx' : Nested x')
    (hr : AtComma r) (hr' : AtComma r') (h : x ++ r = x' ++ r') : x = x' ∧ r = r' := by
  rcases List.append_eq_append_iff.1 h with ⟨y, rfl, hy⟩ | ⟨y, rfl, hy⟩
  · obtain rfl := hx.not_longer hx' hr hy
    exact ⟨(List.append_nil x).symm, hy⟩
  · obtain rfl := hx'.not_longer hx hr' hy
    exact ⟨List.append_nil x', hy.symm⟩

theorem Balanced.no_open_bracket {w u v : List Char} (hw : Balanced w) (hv : Balanced v)
    (h : w = u ++ '<' :: v) : False := by
  have hu := hw.depth_nonneg u _ h
  have hdepth := hw.depth_eq
  rw [h, depth_append, depth_cons, hv.depth_eq, bracketWeight, if_pos rfl] at hdepth
  omega

/-- The arguments begin behind the last bracket that they do not close. -/
theorem Balanced.last_bracket_unique {x x' w w' : List Char} (hw : Balanced w) (hw' : Balanced w')
    (h : x ++ '<' :: w = x' ++ '<' :: w') : x = x' ∧ w = w' := by
  rcases List.append_eq_append_iff.1 h with ⟨y, rfl, hy⟩ | ⟨y, rfl, hy⟩
  · cases y with
    | nil => exact ⟨(List.append_nil x).symm, (List.cons.inj hy).2⟩
    | cons c y => exact absurd (List.cons.inj hy).2 (hw.no_open_bracket hw')
  · cases y with
    | nil => exact ⟨List.append_nil x', ((List.cons.inj hy).2).symm⟩
    | cons c y => exact absurd (List.cons.inj hy).2 (hw'.no_open_bracket hw)

/-! ## Ids -/

namespace ClassId

/-- Not empty, and free of the characters that separate the parts of a type. -/
def IsPlain (id : ClassId) : Prop := id.name ≠ "" ∧ ∀ c ∈ id.name.toList, c ∉ separators

instance (id : ClassId) : Decidable id.IsPlain :=
  @instDecidableAnd _ _ inferInstance (List.decidableBAll _ id.name.toList)

/-- An id that shows where it ends. -/
structure IsTidy (id : ClassId) : Prop where
  ne_nil : id.name.toList ≠ []
  nested : Nested id.name.toList
  open_end : id.name.toList.getLast? ≠ some '>'

theorem IsPlain.tidy {id : ClassId} (h : id.IsPlain) : id.IsTidy where
  ne_nil hnil := h.1 (by simpa using hnil)
  nested := by
    refine .of_flat (fun c hc => ?_) fun hcomma => h.2 ',' hcomma (by decide)
    have hsep := h.2 c hc
    have hopen : c ≠ '<' := fun heq => hsep (by simp [heq, separators])
    have hclose : c ≠ '>' := fun heq => hsep (by simp [heq, separators])
    rw [bracketWeight, if_neg hopen, if_neg hclose]
  open_end hlast := h.2 '>' (List.mem_of_getLast? hlast) (by decide)

end ClassId

namespace TypeExpr

/-! ## Texts of types -/

/-- A concrete type whose ids show where they end. -/
structure IsTidy (ty : TypeExpr) : Prop where
  concrete : ty.isConcrete = true
  tidy : ∀ id ∈ ty.ids, id.IsTidy

theorem IsTidy.args {raw : ClassId} {args : List TypeExpr} (h : (TypeExpr.apply raw args).IsTidy) :
    ∀ arg ∈ args, arg.IsTidy := fun arg harg =>
  ⟨areConcrete_iff.1 h.concrete arg harg, fun id hid =>
    h.tidy id (List.mem_cons_of_mem raw (mem_idsOfAll.2 ⟨arg, harg, hid⟩))⟩

theorem display_apply_toList (raw : ClassId) (args : List TypeExpr) :
    (TypeExpr.apply raw args).display.toList =
      raw.name.toList ++ '<' :: ((displayArgs args).toList ++ ['>']) := by
  simp [display]

theorem displayArgs_cons_toList (ty : TypeExpr) (tys : List TypeExpr) :
    (displayArgs (ty :: tys)).toList = ty.display.toList ++ (displayMore tys).toList := by
  simp [displayArgs]

/-- Behind another argument, arguments are shown as they are at the start, after a comma. -/
theorem displayMore_cons_toList (ty : TypeExpr) (tys : List TypeExpr) :
    (displayMore (ty :: tys)).toList = ',' :: ' ' :: (displayArgs (ty :: tys)).toList := by
  simp [displayMore, displayArgs]

theorem displayMore_atComma (tys : List TypeExpr) : AtComma (displayMore tys).toList := by
  cases tys with
  | nil => exact .inl rfl
  | cons ty tys => exact .inr ⟨_, displayMore_cons_toList ty tys⟩

theorem displayMore_balanced {tys : List TypeExpr} (h : Balanced (displayArgs tys).toList) :
    Balanced (displayMore tys).toList := by
  cases tys with
  | nil => exact .of_flat nofun
  | cons ty tys =>
    have hsep : Balanced [',', ' '] := .of_flat (by simp [bracketWeight])
    rw [displayMore_cons_toList]
    exact hsep.append h

theorem displayArgs_eq_of_displayMore {as bs : List TypeExpr} (h : displayMore as = displayMore bs) :
    displayArgs as = displayArgs bs := by
  have hlist := congrArg String.toList h
  cases as <;> cases bs
  · rfl
  · rw [displayMore_cons_toList] at hlist
    cases hlist
  · rw [displayMore_cons_toList] at hlist
    cases hlist
  · rw [displayMore_cons_toList, displayMore_cons_toList] at hlist
    exact String.toList_inj.1 (List.cons.inj (List.cons.inj hlist).2).2

theorem length_displayArgs_le (tys : List TypeExpr) :
    (displayArgs tys).toList.length ≤ (displayMore tys).toList.length := by
  cases tys with
  | nil => exact Nat.le_refl _
  | cons ty tys =>
    rw [displayMore_cons_toList, List.length_cons, List.length_cons]
    omega

theorem display_ne_nil {ty : TypeExpr} (h : ty.IsTidy) : ty.display.toList ≠ [] := by
  cases ty with
  | named id => exact (h.tidy id (by simp [ids])).ne_nil
  | apply raw args => rw [display_apply_toList]; simp
  | wildcard lower upper => cases h.concrete
  | var owner name => cases h.concrete
  | array component => cases h.concrete

mutual

theorem display_nested : (ty : TypeExpr) → ty.IsTidy → Nested ty.display.toList
  | .named id, h => (h.tidy id (by simp [ids])).nested
  | .apply raw args, h => by
    rw [display_apply_toList]
    exact (h.tidy raw (by simp [ids])).nested.append (displayArgs_balanced args h.args).wrap
  | .wildcard _ _, h => by cases h.concrete
  | .var _ _, h => by cases h.concrete
  | .array _, h => by cases h.concrete

theorem displayArgs_balanced :
    (tys : List TypeExpr) → (∀ ty ∈ tys, ty.IsTidy) → Balanced (displayArgs tys).toList
  | [], _ => .of_flat nofun
  | ty :: tys, h => by
    rw [displayArgs_cons_toList]
    exact (display_nested ty (h ty List.mem_cons_self)).toBalanced.append
      (displayMore_balanced (displayArgs_balanced tys fun a ha => h a (List.mem_cons_of_mem ty ha)))

end

/-- A tidy id is not the text of a parameterization. -/
theorem display_apply_ne {id raw : ClassId} {args : List TypeExpr} (hid : id.IsTidy) :
    id.name ≠ (TypeExpr.apply raw args).display := by
  intro h
  refine hid.open_end ?_
  rw [h, display_apply_toList, ← List.cons_append, ← List.append_assoc, List.getLast?_append]
  rfl

/-- Argument lists with the same text begin with arguments of the same text. -/
theorem firsts_eq {a b : TypeExpr} {as bs : List TypeExpr} (ha : a.IsTidy) (hb : b.IsTidy)
    (h : a.display.toList ++ (displayMore as).toList =
      b.display.toList ++ (displayMore bs).toList) :
    a.display = b.display ∧ displayMore as = displayMore bs := by
  obtain ⟨hfirst, hmore⟩ := (display_nested a ha).first_unique (display_nested b hb)
    (displayMore_atComma as) (displayMore_atComma bs) h
  exact ⟨String.toList_inj.1 hfirst, String.toList_inj.1 hmore⟩

mutual

/-- Tidy types with the same text are the same. -/
theorem display_injective :
    (a b : TypeExpr) → a.IsTidy → b.IsTidy → a.display = b.display → a = b
  | .named i, .named j, _, _, h => congrArg TypeExpr.named (congrArg ClassId.mk h)
  | .named i, .apply _ _, ha, _, h => absurd h (display_apply_ne (ha.tidy i (by simp [ids])))
  | .apply _ _, .named j, _, hb, h => absurd h.symm (display_apply_ne (hb.tidy j (by simp [ids])))
  | .apply r as, .apply s bs, ha, hb, h => by
    have hlist := congrArg String.toList h
    rw [display_apply_toList, display_apply_toList, ← List.cons_append, ← List.cons_append,
      ← List.append_assoc, ← List.append_assoc] at hlist
    obtain ⟨hraw, hargs⟩ := (displayArgs_balanced as ha.args).last_bracket_unique
      (displayArgs_balanced bs hb.args) (List.append_cancel_right hlist)
    rw [displayArgs_injective as bs ha.args hb.args (String.toList_inj.1 hargs)]
    exact congrArg (TypeExpr.apply · bs) (congrArg ClassId.mk (String.toList_inj.1 hraw))
  | .wildcard _ _, _, ha, _, _ => by cases ha.concrete
  | .var _ _, _, ha, _, _ => by cases ha.concrete
  | .array _, _, ha, _, _ => by cases ha.concrete
  | .named _, .wildcard _ _, _, hb, _ | .apply _ _, .wildcard _ _, _, hb, _ => by cases hb.concrete
  | .named _, .var _ _, _, hb, _ | .apply _ _, .var _ _, _, hb, _ => by cases hb.concrete
  | .named _, .array _, _, hb, _ | .apply _ _, .array _, _, hb, _ => by cases hb.concrete

theorem displayArgs_injective :
    (as bs : List TypeExpr) → (∀ a ∈ as, a.IsTidy) → (∀ b ∈ bs, b.IsTidy) →
      displayArgs as = displayArgs bs → as = bs
  | [], [], _, _, _ => rfl
  | [], b :: bs, _, hb, h => by
    have hlist := congrArg String.toList h
    rw [displayArgs_cons_toList] at hlist
    exact absurd (List.append_eq_nil_iff.1 hlist.symm).1 (display_ne_nil (hb b List.mem_cons_self))
  | a :: as, [], ha, _, h => by
    have hlist := congrArg String.toList h
    rw [displayArgs_cons_toList] at hlist
    exact absurd (List.append_eq_nil_iff.1 hlist).1 (display_ne_nil (ha a List.mem_cons_self))
  | a :: as, b :: bs, ha, hb, h => by
    have hlist := congrArg String.toList h
    rw [displayArgs_cons_toList, displayArgs_cons_toList] at hlist
    obtain ⟨hfirst, hmore⟩ := firsts_eq (ha a List.mem_cons_self) (hb b List.mem_cons_self) hlist
    rw [display_injective a b (ha a List.mem_cons_self) (hb b List.mem_cons_self) hfirst,
      displayArgs_injective as bs (fun x hx => ha x (List.mem_cons_of_mem a hx))
        (fun x hx => hb x (List.mem_cons_of_mem b hx)) (displayArgs_eq_of_displayMore hmore)]

end

/-! ## Lengths -/

mutual

/-- The ids of a concrete type stand in its text. -/
theorem length_le_display {id : ClassId} :
    (ty : TypeExpr) → ty.isConcrete = true → id ∈ ty.ids →
      id.name.toList.length ≤ ty.display.toList.length
  | .named i, _, hid => by
    rw [List.mem_singleton.1 hid]
    exact Nat.le_refl _
  | .apply raw args, hc, hid => by
    rw [display_apply_toList]
    simp only [List.length_append, List.length_cons]
    rcases List.mem_cons.1 hid with rfl | hid
    · omega
    · have hle := length_le_displayArgs args hc hid
      omega

theorem length_le_displayArgs {id : ClassId} :
    (tys : List TypeExpr) → areConcrete tys = true → id ∈ idsOfAll tys →
      id.name.toList.length ≤ (displayArgs tys).toList.length
  | ty :: tys, hc, hid => by
    obtain ⟨hty, htys⟩ := Bool.and_eq_true_iff.1 hc
    rw [displayArgs_cons_toList, List.length_append]
    rcases List.mem_append.1 hid with hid | hid
    · have hle := length_le_display ty hty hid
      omega
    · have hle := length_le_displayArgs tys htys hid
      have hmore := length_displayArgs_le tys
      omega

end

end TypeExpr
end Introspect
