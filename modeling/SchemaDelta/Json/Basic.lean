/-!
# JSON values

An object is the list of its entries in the order in which its keys first arrived. `Json.insert`
keeps that order: a new key goes to the end, and a key that is present takes the new value where it
stands.
-/

namespace SchemaDelta

/-- A JSON number: an integer of 64 bits, signed or not, or else a double. -/
inductive Number where
  | integer (n : Int)
  | real (x : Float)

/-- A JSON value. -/
inductive Json where
  | null
  | bool (b : Bool)
  | number (n : Number)
  | string (s : String)
  | array (items : List Json)
  | object (entries : List (String × Json))

instance : Inhabited Json := ⟨.null⟩

namespace Json

/-- The entries of an object. -/
abbrev Entries := List (String × Json)

/-- The value of a key. -/
def Entries.value? (key : String) (entries : Entries) : Option Json :=
  entries.lookup key

/-- The value of a key, with `null` for a key that is absent. -/
def Entries.value (key : String) (entries : Entries) : Json :=
  (entries.value? key).getD .null

/-- The key has the value: in its place when it is present, at the end when it is new. -/
def Entries.insert (key : String) (value : Json) : Entries → Entries
  | [] => [(key, value)]
  | (k, v) :: r => if k = key then (k, value) :: r else (k, v) :: Entries.insert key value r

/-- The entries with each key once, at its first position and with its last value. -/
def Entries.ofList (entries : List (String × Json)) : Entries :=
  entries.foldl (fun acc e => Entries.insert e.1 e.2 acc) []

/-- The first entry of a key has its value. -/
theorem Entries.value?_cons (key : String) (e : String × Json) (r : Entries) :
    value? key (e :: r) = if key = e.1 then some e.2 else r.value? key := by
  obtain ⟨k, v⟩ := e
  by_cases h : key = k
  · simp [value?, h]
  · have hbeq : (key == k) = false := by simpa using h
    simp [value?, List.lookup_cons, hbeq, h]

/-- The written value is found. -/
theorem Entries.value?_insert_self (key : String) (value : Json) (entries : Entries) :
    (Entries.insert key value entries).value? key = some value := by
  induction entries with
  | nil => simp [insert, value?_cons]
  | cons e r ih =>
    obtain ⟨k, v⟩ := e
    by_cases h : k = key
    · simp [insert, h, value?_cons]
    · simp [insert, h, value?_cons, Ne.symm h, ih]

/-- Other keys keep their values. -/
theorem Entries.value?_insert_of_ne {key other : String} (h : other ≠ key) (value : Json)
    (entries : Entries) :
    (Entries.insert key value entries).value? other = entries.value? other := by
  induction entries with
  | nil => simp [insert, value?_cons, h]
  | cons e r ih =>
    obtain ⟨k, v⟩ := e
    by_cases hk : k = key
    · simp [insert, hk, value?_cons, h]
    · simp [insert, hk, value?_cons, ih]

end Json

end SchemaDelta
