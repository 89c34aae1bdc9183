/-!
Finite dictionaries as lists of entries in order of first arrival.

* `find?_insert_self`, `find?_insert_of_ne`: what a key finds after a write.
* `keys_insert_of_contains`: writing a present key moves nothing.
-/

namespace Introspect

structure Dict (κ α : Type) where
  entries : List (κ × α)
  deriving Repr

namespace Dict

variable {κ α : Type} [DecidableEq κ]

def empty : Dict κ α := ⟨[]⟩

instance : Inhabited (Dict κ α) := ⟨⟨[]⟩⟩

def lookupEntry (k : κ) : List (κ × α) → Option α
  | [] => none
  | e :: es => if k = e.1 then some e.2 else lookupEntry k es

def find? (d : Dict κ α) (k : κ) : Option α := lookupEntry k d.entries

def contains (d : Dict κ α) (k : κ) : Bool := (d.find? k).isSome

def putEntry (k : κ) (v : α) : List (κ × α) → List (κ × α)
  | [] => [(k, v)]
  | e :: es => if k = e.1 then (k, v) :: es else e :: putEntry k v es

/-- Writes at a key; a new key goes to the end. -/
def insert (d : Dict κ α) (k : κ) (v : α) : Dict κ α := ⟨putEntry k v d.entries⟩

def erase (d : Dict κ α) (k : κ) : Dict κ α := ⟨d.entries.filter fun e => e.1 ≠ k⟩

def size (d : Dict κ α) : Nat := d.entries.length

def keys (d : Dict κ α) : List κ := d.entries.map (·.1)

/-- Writes the entries of a list in turn. -/
def ofList (entries : List (κ × α)) : Dict κ α :=
  entries.foldl (fun d e => d.insert e.1 e.2) empty

@[simp] theorem find?_empty (k : κ) : (empty : Dict κ α).find? k = none := rfl

theorem lookupEntry_putEntry (k j : κ) (v : α) (es : List (κ × α)) :
    lookupEntry j (putEntry k v es) = if j = k then some v else lookupEntry j es := by
  induction es with
  | nil => simp [putEntry, lookupEntry]
  | cons e es ih =>
    by_cases h : k = e.1
    · by_cases hj : j = k
      · simp [putEntry, lookupEntry, h, hj]
      · simp [putEntry, lookupEntry, h, h ▸ hj]
    · by_cases hj : j = e.1
      · simp [putEntry, lookupEntry, h, hj, Ne.symm h]
      · simp [putEntry, lookupEntry, h, hj, ih]

@[simp] theorem find?_insert_self (d : Dict κ α) (k : κ) (v : α) :
    (d.insert k v).find? k = some v := by
  simp [find?, insert, lookupEntry_putEntry]

theorem find?_insert_of_ne (d : Dict κ α) {k j : κ} (v : α) (h : j ≠ k) :
    (d.insert k v).find? j = d.find? j := by
  simp [find?, insert, lookupEntry_putEntry, h]

theorem keys_insert_of_contains (d : Dict κ α) (k : κ) (v : α) (h : d.contains k = true) :
    (d.insert k v).keys = d.keys := by
  obtain ⟨es⟩ := d
  simp only [contains, find?] at h
  simp only [keys, insert]
  induction es with
  | nil => simp [lookupEntry] at h
  | cons e es ih =>
    by_cases hk : k = e.1
    · simp [putEntry, hk]
    · simp only [lookupEntry, hk, if_false] at h
      simp [putEntry, hk, ih h]

end Dict
end Introspect
