import Introspect.Dict
import Introspect.Values.Value

/-!
The heap of shared instances: objects with named slots, sequences, maps and observable holders.

A write through one reference is seen through every other reference to the same instance. Reading
beyond the heap gives an empty instance and writing beyond it does nothing, so every operation is
total; references handed out by the allocating operations are never beyond it.

A holder publishes each value written to it to the channels subscribed to it. A `Signal` is a receiver
of such a channel; several receivers may share one, and a channel without receivers is dropped from
its holder at the next write.
-/

namespace Introspect

structure Holder where
  value : Value
  /-- Subscribed channels, oldest first. -/
  subscribers : List Nat
  deriving Repr, Inhabited

structure Channel where
  /-- Published values nobody has taken yet, oldest first. -/
  pending : List Value
  receivers : Nat
  deriving Repr, Inhabited

structure Heap where
  objects : Array (Dict String Value)
  sequences : Array (List Value)
  maps : Array (Dict Value Value)
  holders : Array Holder
  channels : Array Channel
  deriving Repr, Inhabited

/-- Computations on the heap. What they wrote before a failure stays written. -/
abbrev HeapM := EStateM Error Heap

namespace Heap

def empty : Heap := ⟨#[], #[], #[], #[], #[]⟩

/-! ## Objects -/

def allocObject (h : Heap) (cls : ClassId) (slots : Dict String Value) : Value × Heap :=
  (.object ⟨cls, h.objects.size⟩, { h with objects := h.objects.push slots })

def slots (h : Heap) (ref : Ref) : Dict String Value := h.objects[ref.index]?.getD .empty

def slot? (h : Heap) (ref : Ref) (name : String) : Option Value := (h.slots ref).find? name

/-- The slot's value; null when the slot does not exist. -/
def slotOrNull (h : Heap) (ref : Ref) (name : String) : Value := (h.slot? ref name).getD .null

def setSlot (h : Heap) (ref : Ref) (name : String) (v : Value) : Heap :=
  { h with objects := h.objects.setIfInBounds ref.index ((h.slots ref).insert name v) }

/-- Slot names in order. -/
def slotNames (h : Heap) (ref : Ref) : List String :=
  (h.slots ref).keys.mergeSort fun a b => decide (a ≤ b)

/-! ## Sequences -/

/-- No sequence grows to this many items or more. -/
def allocationLimit : Nat := 0x1000000000000000

def allocSequence (h : Heap) (cls : ClassId) (items : List Value) : Ref × Heap :=
  (⟨cls, h.sequences.size⟩, { h with sequences := h.sequences.push items })

def allocList (h : Heap) (cls : ClassId) (items : List Value) : Value × Heap :=
  let (ref, h) := h.allocSequence cls items
  (.list ref, h)

def allocArray (h : Heap) (cls : ClassId) (items : List Value) : Value × Heap :=
  let (ref, h) := h.allocSequence cls items
  (.array ref, h)

def items (h : Heap) (ref : Ref) : List Value := h.sequences[ref.index]?.getD []

def setItems (h : Heap) (ref : Ref) (items : List Value) : Heap :=
  { h with sequences := h.sequences.setIfInBounds ref.index items }

def push (h : Heap) (ref : Ref) (v : Value) : Heap := h.setItems ref (h.items ref ++ [v])

/-- The items with `v` at the index, padded with nulls when it lies past the end. -/
def writeItem (items : List Value) (index : Nat) (v : Value) : List Value :=
  if index < items.length then items.set index v
  else items ++ List.replicate (index - items.length) .null ++ [v]

def setItem (h : Heap) (ref : Ref) (index : Nat) (v : Value) : Except Error Heap :=
  if (h.items ref).length ≤ index ∧ allocationLimit ≤ index then .error (.capacity index)
  else .ok (h.setItems ref (writeItem (h.items ref) index v))

/-! ## Maps -/

def allocMap (h : Heap) (cls : ClassId) (entries : Dict Value Value) : Value × Heap :=
  (.map ⟨cls, h.maps.size⟩, { h with maps := h.maps.push entries })

def entries (h : Heap) (ref : Ref) : Dict Value Value := h.maps[ref.index]?.getD .empty

def setEntries (h : Heap) (ref : Ref) (d : Dict Value Value) : Heap :=
  { h with maps := h.maps.setIfInBounds ref.index d }

def valueAt? (h : Heap) (ref : Ref) (key : Value) : Option Value := (h.entries ref).find? key

def insertEntry (h : Heap) (ref : Ref) (key v : Value) : Heap :=
  h.setEntries ref ((h.entries ref).insert key v)

def removeEntry (h : Heap) (ref : Ref) (key : Value) : Heap :=
  h.setEntries ref ((h.entries ref).erase key)

/-! ## Holders and signals -/

def allocHolder (h : Heap) (v : Value) : Value × Heap :=
  (.holder h.holders.size, { h with holders := h.holders.push ⟨v, []⟩ })

def holderAt (h : Heap) (index : Nat) : Holder := h.holders[index]?.getD ⟨.null, []⟩

def held (h : Heap) (index : Nat) : Value := (h.holderAt index).value

def subscriberCount (h : Heap) (index : Nat) : Nat := (h.holderAt index).subscribers.length

def channelAt (h : Heap) (c : Nat) : Channel := h.channels[c]?.getD ⟨[], 0⟩

def setChannel (h : Heap) (c : Nat) (channel : Channel) : Heap :=
  { h with channels := h.channels.setIfInBounds c channel }

def isLive (h : Heap) (c : Nat) : Bool := 0 < (h.channelAt c).receivers

def publish (h : Heap) (v : Value) (c : Nat) : Heap :=
  let channel := h.channelAt c
  h.setChannel c { channel with pending := channel.pending ++ [v] }

/-- Replaces the held value, publishes it to every live channel and drops the others. -/
def setHeld (h : Heap) (index : Nat) (v : Value) : Heap :=
  let live := (h.holderAt index).subscribers.filter h.isLive
  let h := { h with holders := h.holders.setIfInBounds index ⟨v, live⟩ }
  live.foldl (fun h c => h.publish v c) h

end Heap

/-- A receiver of published values; `never` receives nothing. -/
inductive Signal where
  | never
  | channel (index : Nat)
  deriving DecidableEq, Repr, Inhabited

namespace Heap

/-- A new signal of the values written to the holder from now on. -/
def subscribe (h : Heap) (index : Nat) : Signal × Heap :=
  let c := h.channels.size
  let holder := h.holderAt index
  let holders :=
    h.holders.setIfInBounds index { holder with subscribers := holder.subscribers ++ [c] }
  (.channel c, { h with channels := h.channels.push ⟨[], 1⟩, holders })

end Heap

namespace Signal

/-- Values waiting for the signal, oldest first. -/
def pending (s : Signal) (h : Heap) : List Value :=
  match s with
  | .never => []
  | .channel c => (h.channelAt c).pending

/-- Takes the oldest waiting value. -/
def tryNext (s : Signal) (h : Heap) : Option Value × Heap :=
  match s with
  | .never => (none, h)
  | .channel c =>
    let channel := h.channelAt c
    match channel.pending with
    | [] => (none, h)
    | v :: rest => (some v, h.setChannel c { channel with pending := rest })

/-- Takes all waiting values. -/
def drain (s : Signal) (h : Heap) : List Value × Heap :=
  match s with
  | .never => ([], h)
  | .channel c =>
    let channel := h.channelAt c
    (channel.pending, h.setChannel c { channel with pending := [] })

/-- One more receiver of the same channel. -/
def clone (s : Signal) (h : Heap) : Heap :=
  match s with
  | .never => h
  | .channel c =>
    let channel := h.channelAt c
    h.setChannel c { channel with receivers := channel.receivers + 1 }

/-- One receiver less. -/
def drop (s : Signal) (h : Heap) : Heap :=
  match s with
  | .never => h
  | .channel c =>
    let channel := h.channelAt c
    h.setChannel c { channel with receivers := channel.receivers - 1 }

end Signal
end Introspect
