import Introspect.Proofs.Models.Access

/-!
Runs: what may be done with a registry and its instances, in any order, and what holds of every registry
that is reached that way.

* `Operation`, `Store.run`: the operations and their runs.
* `perform_step`: an operation initializes no model but the one it was asked for.
* `run_later`: what stays as it was over a run.
* `reachable_registry`: the cache and the contents of every reachable registry.
-/

namespace Introspect

open Registry

/-! ## Operations -/

/-- What may be asked of a model. -/
inductive Request where
  | init
  | properties
  | parameters
  | property (name : String)
  | get (this : Value) (name : String)
  | set (this : Value) (name : String) (v : Value)
  | observe (this : Value) (name : String)
  | walk (this : Value)

def Request.run (m : Model) : Request → StoreM Unit
  | .init => Store.onRegistry m.init
  | .properties => discard (Store.onRegistry m.properties)
  | .parameters => discard (Store.onRegistry m.parameters)
  | .property name => discard (Store.onRegistry (m.property? name))
  | .get this name => discard (m.get this name)
  | .set this name v => discard (m.set this name v)
  | .observe this name => discard (m.observe this name)
  | .walk this => discard (m.walk this)

inductive Operation where
  | define (c : Class)
  | arrayOf (component : TypeExpr)
  | resolve (ty site : TypeExpr)
  | registerCodec (id : ClassId) (codec : Codec)
  | setConfig (config : Config)
  | ofType (ty : TypeExpr)
  | of (id : ClassId)
  | ofValue (v : Value)
  /-- A request to the model at a place of the cache; without such a model nothing is done. -/
  | request (place : Nat) (what : Request)
  /-- Access through a property that was handed out before. -/
  | read (p : Property) (this : Value)
  | write (p : Property) (this v : Value)
  | observe (p : Property) (this : Value)
  /-- Anything that works on instances only. -/
  | onHeap (x : ClassTable → HeapM Unit)
  | drop
  /-- Asked by no one: from now on scans visit the accessor pairs they find in another order. -/
  | reorder (order : VisitOrder)

namespace Operation

def run : Operation → StoreM Unit
  | .define c => discard (Store.onRegistry (Registry.define c))
  | .arrayOf component => discard (Store.onRegistry (onTable (ClassTable.arrayOf component)))
  | .resolve ty site => discard (Store.onRegistry (onTable (ClassTable.resolve ty site)))
  | .registerCodec id codec => Store.onRegistry (Registry.registerCodec id codec)
  | .setConfig config => Store.onRegistry (Registry.setConfig config)
  | .ofType ty => discard (Store.onRegistry (Registry.ofType ty))
  | .of id => discard (Store.onRegistry (Registry.of id))
  | .ofValue v => discard (Store.onRegistry (Registry.ofValue v))
  | .request place what => do
    match (← get).registry.models[place]? with
    | some m => what.run m
    | none => return
  | .read p this => discard (p.read this)
  | .write p this v => discard (p.write this v)
  | .observe p this => discard (p.observe this)
  | .onHeap x => do Store.onHeap (x (← get).registry.classes)
  | .drop => modify fun s => { s with registry := s.registry.dropped }
  | .reorder order => modify fun s => { s with registry := s.registry.reordered order }

def perform (op : Operation) (s : Store) : Store := after op.run s

/-- The model that a lookup of the type initializes. -/
def sought (r : Registry) (ty : TypeExpr) : Option Model :=
  match modelOf ty r with
  | .ok m _ => some m
  | .error _ _ => none

/-- The model that the operation is asked to initialize. -/
def subject (s : Store) : Operation → Option Model
  | .ofType ty => sought s.registry ty
  | .of id => sought s.registry (.named id)
  | .ofValue v => v.runtimeClass?.bind fun id => sought s.registry (.named id)
  | .request place _ => s.registry.models[place]?
  | _ => none

/-- The class whose codec the operation registers. -/
def coded : Operation → Option ClassId
  | .registerCodec id _ => some id
  | _ => none

/-- What the operation is asked to change. -/
def change : Operation → Option Change
  | .define _ => some .classes
  | .registerCodec id _ => some (.codec id)
  | .setConfig _ => some .config
  | _ => none

theorem change_ne {op : Operation} {id : ClassId} (h : op.coded ≠ some id) :
    op.change ≠ some (.codec id) := by
  cases op with
  | registerCodec other codec => exact fun heq => h (by cases heq; rfl)
  | _ => exact nofun

end Operation

namespace Store

/-- The store after a sequence of operations. -/
def run (s : Store) (ops : List Operation) : Store := ops.foldl (fun s op => op.perform s) s

theorem run_nil (s : Store) : s.run [] = s := rfl

theorem run_cons (s : Store) (op : Operation) (ops : List Operation) :
    s.run (op :: ops) = (op.perform s).run ops := rfl

theorem run_append (s : Store) (ops more : List Operation) :
    s.run (ops ++ more) = (s.run ops).run more := by
  unfold run
  rw [List.foldl_append]

end Store

/-! ## One operation -/

namespace Registry

variable {r : Registry}

theorem none_there {r : Registry} (m : Model) (h : none = some m) : m ∈ r.models := by
  cases h

theorem define_apply (c : Class) (r : Registry) :
    Registry.define c r =
      match r.classes.define c with
      | .ok t =>
        .ok c.id (logged { r with classes := t } .debug
          ("[classes] declared " ++ c.id.name ++ " (" ++ c.kind.describe ++ ")"))
      | .error e => .error e r := by
  unfold Registry.define
  rw [bind_apply, get_apply]
  simp only
  cases r.classes.define c with
  | ok t => rfl
  | error e => rfl

theorem define_step (c : Class) (hv : r.Valid) :
    Step none (some .classes) r (after (Registry.define c) r) := by
  cases h : r.classes.define c with
  | error e =>
    rw [after_of_error (by rw [define_apply, h])]
    exact Step.refl hv none_there _
  | ok t =>
    rw [after_of_ok (by rw [define_apply, h])]
    have hgrow : r.classes.Within t := ClassTable.define_grows h
    exact
      { valid := (hv.table hgrow).logged _ _
        classes := hgrow
        models := List.prefix_refl _
        kept := fun _ _ hc => hc
        only := fun _ _ => rfl
        built := fun _ _ hc => .inl hc
        codecs := fun _ _ => rfl
        calm := nofun
        there := none_there }

theorem registerCodec_step (id : ClassId) (codec : Codec) (hv : r.Valid) :
    Step none (some (.codec id)) r (after (Registry.registerCodec id codec) r) where
  valid := ⟨hv.place, hv.cached, hv.entry, hv.owned, hv.closed⟩
  classes := ClassTable.Within.refl _
  models := List.prefix_refl _
  kept _ _ hc := hc
  only _ _ := rfl
  built _ _ hc := .inl hc
  codecs other hne := Dict.find?_insert_of_ne _ _ fun h => hne (by rw [h])
  calm := nofun
  there := none_there

theorem setConfig_step (config : Config) (hv : r.Valid) :
    Step none (some .config) r (after (Registry.setConfig config) r) where
  valid := ⟨hv.place, hv.cached, hv.entry, hv.owned, hv.closed⟩
  classes := ClassTable.Within.refl _
  models := List.prefix_refl _
  kept _ _ hc := hc
  only _ _ := rfl
  built _ _ hc := .inl hc
  codecs _ _ := rfl
  calm := nofun
  there := none_there

/-- A lookup initializes the model it is asked for, or nothing. -/
theorem ofType_step (ty : TypeExpr) (hv : r.Valid) :
    Step (Operation.sought r ty) none r (after (Registry.ofType ty) r) := by
  obtain ⟨hv₁, hg, hc⟩ := modelOf_keeps ty r (Grown.refl r) hv
  unfold Operation.sought
  cases hm : modelOf ty r with
  | error e r₁ =>
    rw [after_of_error hm] at hv₁ hg
    rw [after_of_error (ofType_of_error hm)]
    exact Step.of_grown hg hv₁ none_there _
  | ok m r₁ =>
    rw [after_of_ok hm] at hv₁ hg
    have hstep := Model.getContents_step hv₁ (hc m r₁ hm)
    have there : ∀ n, some m = some n → n ∈ r₁.models := by
      intro n hn
      cases hn
      exact hc m r₁ hm
    rw [after_ofType hm]
    exact (Step.of_grown hg hv₁ there _).trans hstep

theorem ofValue_step (v : Value) (hv : r.Valid) :
    Step (v.runtimeClass?.bind fun id => Operation.sought r (.named id)) none r
      (after (Registry.ofValue v) r) := by
  unfold Registry.ofValue
  cases v.runtimeClass? with
  | none => exact Step.refl hv none_there _
  | some id =>
    have hafter : after (do return some (← Registry.of id) : RegistryM (Option Model)) r =
        after (Registry.ofType (.named id)) r := by
      unfold after
      rw [bind_apply]
      unfold Registry.of
      cases Registry.ofType (.named id) r with
      | ok m r₁ => rfl
      | error e r₁ => rfl
    simp only [Option.bind_some]
    rw [hafter]
    exact ofType_step (.named id) hv

end Registry

open Store

theorem Request.run_steps {m : Model} (what : Request) :
    Moves (Store.Steps (some m) none) (what.run m) := by
  cases what with
  | init => exact onRegistry_steps (Moves.discard Model.getContents_steps)
  | properties => exact Moves.discard (onRegistry_steps Model.properties_steps)
  | parameters => exact Moves.discard (onRegistry_steps Model.parameters_steps)
  | property name => exact Moves.discard (onRegistry_steps (Model.property?_steps name))
  | get this name => exact Moves.discard (Model.get_steps this name)
  | set this name v => exact Moves.discard (Model.set_steps this name v)
  | observe this name => exact Moves.discard (Model.observe_steps this name)
  | walk this => exact Moves.discard (Model.walk_steps this)

theorem perform_step (op : Operation) {s : Store} (hv : s.registry.Valid) :
    Step (op.subject s) op.change s.registry (op.perform s).registry := by
  have table : ∀ {α : Type} {x : TableM α}, Moves ClassTable.Extends x →
      Step none none s.registry (after (discard (onRegistry (onTable x))) s).registry := by
    intro α x hx
    rw [after_discard, after_onRegistry]
    obtain ⟨hv', hg, -⟩ := onTable_keeps hx s.registry (Grown.refl _) hv
    exact Step.of_grown hg hv' none_there _
  have untouched : ∀ {x : StoreM Unit}, Moves (Store.Steps none none) x →
      Step none none s.registry (after x s).registry :=
    fun hx => hx s hv none_there
  cases op with
  | define c =>
    show Step none (some .classes) _ (after (discard (onRegistry (Registry.define c))) s).registry
    rw [after_discard, after_onRegistry]
    exact define_step c hv
  | arrayOf component => exact table (ClassTable.arrayOf_extends component)
  | resolve ty site => exact table (ClassTable.resolveAt_extends _ ty site)
  | registerCodec id codec =>
    show Step none (some (.codec id)) _ (after (onRegistry (Registry.registerCodec id codec)) s).registry
    rw [after_onRegistry]
    exact registerCodec_step id codec hv
  | setConfig config =>
    show Step none (some .config) _ (after (onRegistry (Registry.setConfig config)) s).registry
    rw [after_onRegistry]
    exact setConfig_step config hv
  | ofType ty =>
    show Step (Operation.sought s.registry ty) none _
      (after (discard (onRegistry (Registry.ofType ty))) s).registry
    rw [after_discard, after_onRegistry]
    exact ofType_step ty hv
  | of id =>
    show Step (Operation.sought s.registry (.named id)) none _
      (after (discard (onRegistry (Registry.ofType (.named id)))) s).registry
    rw [after_discard, after_onRegistry]
    exact ofType_step (.named id) hv
  | ofValue v =>
    show Step (v.runtimeClass?.bind fun id => Operation.sought s.registry (.named id)) none _
      (after (discard (onRegistry (Registry.ofValue v))) s).registry
    rw [after_discard, after_onRegistry]
    exact ofValue_step v hv
  | request place what =>
    show Step s.registry.models[place]? none _ _
    unfold Operation.perform Operation.run
    cases hm : s.registry.models[place]? with
    | none =>
      have hnone : (do match (← get).registry.models[place]? with
          | some m => what.run m
          | none => return : StoreM Unit) s = .ok () s := by
        rw [bind_apply, get_apply]
        simp only [hm]
        rfl
      rw [after_of_ok hnone]
      exact Step.refl hv none_there _
    | some m =>
      have hsome : after (do match (← get).registry.models[place]? with
          | some m => what.run m
          | none => return : StoreM Unit) s = after (what.run m) s := by
        unfold after
        rw [bind_apply, get_apply]
        simp only [hm]
      rw [hsome]
      refine Request.run_steps what s hv fun n hn => ?_
      cases hn
      exact List.mem_of_getElem? hm
  | read p this => exact untouched (Moves.discard (p.read_steps this))
  | write p this v => exact untouched (Moves.discard (p.write_steps this v))
  | observe p this => exact untouched (Moves.discard (p.observe_steps this))
  | onHeap x => exact untouched (bind_steps Store.get_steps fun s => onHeap_steps _)
  | drop | reorder order =>
    exact ⟨⟨hv.place, hv.cached, hv.entry, hv.owned, hv.closed⟩, ClassTable.Within.refl _,
      List.prefix_refl _, fun _ _ hc => hc, fun _ _ => rfl, fun _ _ hc => .inl hc, fun _ _ => rfl,
      fun _ => ⟨ClassTable.Extends.refl _, rfl, rfl⟩, none_there⟩

/-! ## Runs -/

namespace Registry

/-- Later in a run: classes, models and contents that are there stay what they are. -/
structure Later (r r' : Registry) : Prop where
  classes : r.classes.Within r'.classes
  models : r.models <+: r'.models
  kept : ∀ (id : Nat) (c : Contents), r.contents.find? id = some c → r'.contents.find? id = some c

theorem Later.refl (r : Registry) : r.Later r :=
  ⟨ClassTable.Within.refl _, List.prefix_refl _, fun _ _ hc => hc⟩

theorem Later.trans {r s t : Registry} (h : r.Later s) (h' : s.Later t) : r.Later t :=
  ⟨ClassTable.Within.trans _ _ _ h.classes h'.classes, h.models.trans h'.models,
    fun id c hc => h'.kept id c (h.kept id c hc)⟩

theorem Step.later {subject : Option Model} {change : Option Change} {r r' : Registry}
    (h : Step subject change r r') : r.Later r' :=
  ⟨h.classes, h.models, h.kept⟩

theorem new_valid (config : Config) : (Registry.new config).Valid where
  place _ _ h := by cases h
  cached _ h := by cases h
  entry _ h := by cases h
  owned _ _ h := by cases h
  closed _ _ h := by cases h

end Registry

theorem run_later {s : Store} (hv : s.registry.Valid) (ops : List Operation) :
    (s.run ops).registry.Valid ∧ s.registry.Later (s.run ops).registry := by
  induction ops generalizing s with
  | nil => exact ⟨hv, Later.refl _⟩
  | cons op ops ih =>
    have hstep := perform_step op hv
    obtain ⟨hv', hlater⟩ := ih hstep.valid
    exact ⟨hv', hstep.later.trans hlater⟩

/-- The contents of every model were built for it, at some time before. -/
def Registry.ContentsBuilt (r : Registry) : Prop :=
  ∀ (id : Nat) (c : Contents), r.contents.find? id = some c → BuiltBefore r id c

theorem run_built {s : Store} (hv : s.registry.Valid) (hb : s.registry.ContentsBuilt)
    (ops : List Operation) : (s.run ops).registry.ContentsBuilt := by
  induction ops generalizing s with
  | nil => exact hb
  | cons op ops ih =>
    have hstep := perform_step op hv
    refine ih hstep.valid fun id c hc => ?_
    rcases hstep.built id c hc with hc | hbuilt
    · exact (hb id c hc).later hstep.classes hstep.models
    · exact hbuilt.before

/-- Over a run that registers no codec for a class its codec stays. -/
theorem run_codec {s : Store} (hv : s.registry.Valid) {ops : List Operation} {id : ClassId}
    (hops : ∀ op ∈ ops, op.coded ≠ some id) :
    (s.run ops).registry.codecs.registered.find? id = s.registry.codecs.registered.find? id := by
  induction ops generalizing s with
  | nil => rfl
  | cons op ops ih =>
    have hstep := perform_step op hv
    rw [Store.run_cons, ih hstep.valid fun op' h => hops op' (List.mem_cons_of_mem _ h)]
    exact hstep.codecs id (Operation.change_ne (hops op (List.mem_cons_self ..)))

/-- The registry of a new store after a sequence of operations. -/
def reached (config : Config) (ops : List Operation) : Store := (Store.new config).run ops

theorem reached_append (config : Config) (ops more : List Operation) :
    reached config (ops ++ more) = (reached config ops).run more :=
  Store.run_append _ _ _

theorem reached_through (config : Config) (before later : List Operation) (op : Operation) :
    reached config (before ++ op :: later) = (op.perform (reached config before)).run later := by
  rw [reached_append, Store.run_cons]

/-- What a lookup leaves, as an operation. -/
theorem perform_ofType (ty : TypeExpr) (s : Store) :
    ((Operation.ofType ty).perform s).registry = after (Registry.ofType ty) s.registry := by
  show (after (discard (Store.onRegistry (Registry.ofType ty))) s).registry = _
  rw [after_discard, Store.after_onRegistry]

theorem reached_ofType {config : Config} {ops : List Operation} {ty : TypeExpr} {m : Model} {r : Registry}
    (h : Registry.ofType ty (reached config ops).registry = .ok m r) :
    (reached config (ops ++ [.ofType ty])).registry = r := by
  rw [reached_through, Store.run_nil, perform_ofType, after_of_ok h]

theorem reached_valid (config : Config) (ops : List Operation) :
    (reached config ops).registry.Valid :=
  (run_later (new_valid config) ops).1

theorem reached_rooted (config : Config) (ops : List Operation) :
    (reached config ops).registry.classes.Rooted :=
  ClassTable.builtin_rooted.within
    (run_later (s := Store.new config) (new_valid config) ops).2.classes

/-- Every reachable registry has the built-in class `Object`. -/
theorem reached_object (config : Config) (ops : List Operation) :
    (reached config ops).registry.classes.contains .object = true :=
  ClassTable.contains_iff.2 ((reached_rooted config ops).imp fun _ h => h.1)

/-- Contents of a reachable registry were built for their model at an earlier stage. -/
theorem reached_built {config : Config} {ops : List Operation} {m : Model} {c : Contents}
    (hm : m ∈ (reached config ops).registry.models)
    (hc : (reached config ops).registry.contents? m = some c) :
    ∃ s s', m ∈ s.models ∧ s.Valid ∧ m.build s = .ok c s' ∧
      Earlier s' (reached config ops).registry := by
  have hnew : (Store.new config).registry.ContentsBuilt := fun _ _ h => nomatch h
  obtain ⟨n, s, s', hn, hid, hv, hs, hb, hs'⟩ := run_built (new_valid config) hnew ops m.id c hc
  obtain rfl := (reached_valid config ops).eq_of_id (hs.subset hn) hm hid
  exact ⟨s, s', hn, hv, hb, hs'⟩

/-! ## Every reachable registry -/

namespace Registry

/-- A cache entry holds a model of the class of its key; the model's type is that class, or its
parameterization with exactly the arguments of the key. Scalars, objects and arrays have none. -/
def EntriesFit (r : Registry) : Prop :=
  ∀ key m, r.findModel? key = some m →
    m.raw = key.raw ∧ m.cls.id = key.raw ∧
      (m.type = .named key.raw ∧ key.args = [] ∨ m.type = .apply key.raw key.args) ∧
      (m.kind.hasArguments = false → m.type = .named key.raw ∧ key.args = [])

/-- The model is a cache entry, under its own key. -/
def IsEntry (r : Registry) (m : Model) : Prop := r.findModel? m.key = some m

/-- The parameter models and the property value models of an initialized model are cache entries. -/
def ContentsCached (r : Registry) : Prop :=
  ∀ m c, r.contents? m = some c →
    (∀ p ∈ c.properties, r.IsEntry p.model) ∧ ∀ n ∈ c.parameters, r.IsEntry n

/-- A failed initialization initializes no model, and leaves the model it failed for uninitialized; so
does a failed lookup. -/
def FailuresLeaveNothing (r : Registry) : Prop :=
  (∀ m e r', r.IsEntry m → m.getContents r = .error e r' →
    r'.isInitialized m = false ∧ r'.contents = r.contents) ∧
  ∀ ty e r', Registry.ofType ty r = .error e r' → r'.contents = r.contents

/-- Entries stay, and so do the contents of initialized models. -/
def Persists (r r' : Registry) : Prop :=
  (∀ key m, r.findModel? key = some m → r'.findModel? key = some m) ∧
    ∀ m c, r.contents? m = some c → r'.contents? m = some c

theorem Valid.entriesFit {r : Registry} (hv : r.Valid) : r.EntriesFit := by
  intro key m hm
  have hkey := findModel?_key hm
  have he := hv.entry m (mem_of_findModel? hm)
  subst hkey
  have hparts := he.parts
  refine ⟨rfl, ClassTable.find?_id he.cls, ?_, fun hk => ?_⟩
  · cases ht : m.type with
    | named id =>
      rw [ht] at hparts
      obtain ⟨hraw, hargs⟩ := Prod.mk.inj (Option.some.inj hparts)
      exact .inl ⟨by rw [hraw], hargs.symm⟩
    | apply raw args =>
      rw [ht] at hparts
      obtain ⟨hraw, hargs⟩ := Prod.mk.inj (Option.some.inj hparts)
      exact .inr (by rw [hraw, hargs])
    | wildcard lower upper => rw [ht] at hparts; cases hparts
    | var owner name => rw [ht] at hparts; cases hparts
    | array component => rw [ht] at hparts; cases hparts
  · have ht := he.args hk
    rw [ht] at hparts
    exact ⟨ht, (Prod.mk.inj (Option.some.inj hparts)).2.symm⟩

theorem Valid.contentsCached {r : Registry} (hv : r.Valid) : r.ContentsCached := by
  intro m c hc
  have hin : ∀ n ∈ c.models, r.IsEntry n := fun n hn => hv.cached n (hv.closed m.id c hc n hn)
  constructor
  · intro p hp
    exact hin p.model (List.mem_append_left _ (List.mem_map_of_mem hp))
  · intro n hn
    exact hin n (List.mem_append_right _ hn)

theorem Valid.failuresLeaveNothing {r : Registry} (hv : r.Valid) : r.FailuresLeaveNothing := by
  constructor
  · intro m e r' hm h
    obtain ⟨hcontents, hinit⟩ := Model.getContents_error hv (mem_of_findModel? hm) h
    exact ⟨hinit, hcontents⟩
  · intro ty e r' h
    exact (ofType_failed hv h).2.contents

theorem Later.persists {r r' : Registry} (h : r.Later r') : r.Persists r' :=
  ⟨fun _ _ hm => findModel?_of_prefix h.models hm, fun m c hc => h.kept m.id c hc⟩

theorem Step.initializes_subject {subject : Option Model} {change : Option Change}
    {r r' : Registry} (h : Step subject change r r') {m : Model} (hm : r'.IsEntry m)
    (hinit : r'.isInitialized m ≠ r.isInitialized m) : subject = some m := by
  have hid : subject.map (·.id) = some m.id := by
    refine Classical.byContradiction fun hne => hinit ?_
    show (r'.contents.find? m.id).isSome = (r.contents.find? m.id).isSome
    rw [h.only m.id hne]
  obtain ⟨n, hn, hnid⟩ := Option.map_eq_some_iff.1 hid
  rw [hn, h.valid.eq_of_id (h.there n hn) (mem_of_findModel? hm) hnid]

end Registry

/-- Whatever is done with a registry: its cache entries fit their keys, initialized models lead to cache
entries only, an operation changes the initialization of no model but the one it is asked to initialize,
failures leave nothing behind, and what is cached or initialized stays as it is. -/
theorem reachable_registry (config : Config) (ops : List Operation) :
    (reached config ops).registry.EntriesFit ∧
      (reached config ops).registry.ContentsCached ∧
      (reached config ops).registry.FailuresLeaveNothing ∧
      (∀ (op : Operation) (m : Model), (op.perform (reached config ops)).registry.IsEntry m →
        (op.perform (reached config ops)).registry.isInitialized m ≠
            (reached config ops).registry.isInitialized m →
          op.subject (reached config ops) = some m) ∧
      ∀ more, (reached config ops).registry.Persists (reached config (ops ++ more)).registry := by
  have hv := reached_valid config ops
  refine ⟨hv.entriesFit, hv.contentsCached, hv.failuresLeaveNothing, fun op m hm hinit => ?_,
    fun more => ?_⟩
  · exact (perform_step op hv).initializes_subject hm hinit
  · rw [reached_append]
    exact (run_later hv more).2.persists

end Introspect
