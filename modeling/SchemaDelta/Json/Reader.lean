import SchemaDelta.Json.Number

/-!
# Reading JSON

A text is read in one pass over its characters by two machines. The scanner gathers the characters
of a string, number or word and hands over tokens; the builder puts tokens together to a value and
keeps the open arrays and objects on a stack. Both are step functions that fail on the first
character or token that cannot follow, so a text is read exactly when every step succeeds and one
whole value has been built.
-/

namespace SchemaDelta.Json.Reader

/-! ## Tokens to a value -/

/-- The smallest parts of a JSON text. -/
inductive Token where
  | openArray
  | closeArray
  | openObject
  | closeObject
  | comma
  | colon
  | scalar (v : Json)

/-- An open array or object, with what it holds so far in reverse order. -/
inductive Frame where
  | array (items : List Json)
  | object (entries : List (String × Json)) (key : String)

/-- What may come next. -/
inductive Mode where
  | value
  | firstItem
  | key
  | firstKey
  | colon
  | next

/-- A value under construction: the open frames, the innermost first, and the finished value once
no frame is open. -/
structure Builder where
  frames : List Frame
  mode : Mode
  result : Option Json

/-- The most arrays and objects that may be open at once. -/
def maxDepth : Nat := 127

/-- Nothing has been read. -/
def Builder.start : Builder := ⟨[], .value, none⟩

/-- A finished value goes into the innermost frame. -/
def Builder.add (b : Builder) (v : Json) : Builder :=
  match b.frames with
  | [] => ⟨[], .next, some v⟩
  | .array items :: r => ⟨.array (v :: items) :: r, .next, none⟩
  | .object entries key :: r => ⟨.object ((key, v) :: entries) key :: r, .next, none⟩

/-- A new innermost frame. -/
def Builder.open? (b : Builder) (frame : Frame) (mode : Mode) : Option Builder :=
  if b.frames.length < maxDepth then some ⟨frame :: b.frames, mode, none⟩ else none

/-- The innermost frame is finished as an array. -/
def Builder.closeArray? (b : Builder) : Option Builder :=
  match b.frames with
  | .array items :: r => some (Builder.add ⟨r, .next, none⟩ (.array items.reverse))
  | _ => none

/-- The innermost frame is finished as an object. -/
def Builder.closeObject? (b : Builder) : Option Builder :=
  match b.frames with
  | .object entries _ :: r =>
    some (Builder.add ⟨r, .next, none⟩ (.object (Entries.ofList entries.reverse)))
  | _ => none

/-- The key of the next entry. -/
def Builder.setKey? (b : Builder) (key : String) : Option Builder :=
  match b.frames with
  | .object entries _ :: r => some ⟨.object entries key :: r, .colon, none⟩
  | _ => none

/-- After a comma an array expects a value and an object a key. -/
def Builder.advance? (b : Builder) : Option Builder :=
  match b.frames with
  | .array _ :: _ => some { b with mode := .value }
  | .object _ _ :: _ => some { b with mode := .key }
  | [] => none

/-- One token, where the mode lets it follow. -/
def Builder.feed? (b : Builder) (t : Token) : Option Builder :=
  match b.mode, t with
  | .value, .scalar v | .firstItem, .scalar v => some (b.add v)
  | .value, .openArray | .firstItem, .openArray => b.open? (.array []) .firstItem
  | .value, .openObject | .firstItem, .openObject => b.open? (.object [] "") .firstKey
  | .firstItem, .closeArray | .next, .closeArray => b.closeArray?
  | .firstKey, .closeObject | .next, .closeObject => b.closeObject?
  | .firstKey, .scalar (.string k) | .key, .scalar (.string k) => b.setKey? k
  | .colon, .colon => some { b with mode := .value }
  | .next, .comma => b.advance?
  | _, _ => none

/-! ## Characters to tokens -/

/-- What the scanner is in the middle of. Gathered characters stand in reverse order. -/
inductive Scan where
  | between
  | bare (done : List Char)
  | text (done : List Char)
  | escape (done : List Char)
  | unit (done : List Char) (count value : Nat)
  | pairSlash (done : List Char) (high : Nat)
  | pairLetter (done : List Char) (high : Nat)
  | pairUnit (done : List Char) (high count value : Nat)

/-- The character that a letter after a backslash stands for. -/
def escaped? : Char → Option Char
  | '"' => some '"'
  | '\\' => some '\\'
  | '/' => some '/'
  | 'b' => some (Char.ofNat 8)
  | 'f' => some (Char.ofNat 12)
  | 'n' => some '\n'
  | 'r' => some '\r'
  | 't' => some '\t'
  | _ => none

/-- The value of a hexadecimal digit. -/
def hexValue? (c : Char) : Option Nat :=
  if c.isDigit then some (c.toNat - '0'.toNat)
  else if 'a' ≤ c ∧ c ≤ 'f' then some (c.toNat - 'a'.toNat + 10)
  else if 'A' ≤ c ∧ c ≤ 'F' then some (c.toNat - 'A'.toNat + 10)
  else none

/-- The value that a word or a number stands for. -/
def bareValue? (s : List Char) : Option Json :=
  if s = "null".toList then some .null
  else if s = "true".toList then some (.bool true)
  else if s = "false".toList then some (.bool false)
  else (Number.ofChars? s).map .number

/-- The character belongs to a word or a number. -/
def isBare (c : Char) : Bool :=
  c.isAlphanum || c = '-' || c = '+' || c = '.'

/-- A character outside strings, words and numbers. -/
def between? (b : Builder) (c : Char) : Option (Scan × Builder) :=
  let token (t : Token) : Option (Scan × Builder) := (b.feed? t).map fun b => (.between, b)
  match c with
  | ' ' | '\t' | '\n' | '\r' => some (.between, b)
  | '[' => token .openArray
  | ']' => token .closeArray
  | '\x7b' => token .openObject
  | '\x7d' => token .closeObject
  | ',' => token .comma
  | ':' => token .colon
  | '"' => some (.text [], b)
  | c => if isBare c then some (.bare [c], b) else none

/-- The word or number is handed over. -/
def endBare? (b : Builder) (done : List Char) : Option Builder :=
  (bareValue? done.reverse).bind fun v => b.feed? (.scalar v)

/-- The code unit of an escape is complete: a character, or the first half of a pair. -/
def endUnit? (done : List Char) (value : Nat) : Option Scan :=
  if 0xD800 ≤ value ∧ value < 0xDC00 then some (.pairSlash done value)
  else if 0xDC00 ≤ value ∧ value < 0xE000 then none
  else some (.text (Char.ofNat value :: done))

/-- The second code unit of a pair is complete. -/
def endPair? (done : List Char) (high low : Nat) : Option Scan :=
  if 0xDC00 ≤ low ∧ low < 0xE000 then
    some (.text (Char.ofNat (0x10000 + (high - 0xD800) * 0x400 + (low - 0xDC00)) :: done))
  else none

/-- One character. -/
def step? (state : Scan × Builder) (c : Char) : Option (Scan × Builder) :=
  let b := state.2
  match state.1 with
  | .between => between? b c
  | .bare done =>
    if isBare c then some (.bare (c :: done), b)
    else (endBare? b done).bind fun b => between? b c
  | .text done =>
    if c = '"' then
      (b.feed? (.scalar (.string (String.ofList done.reverse)))).map fun b => (.between, b)
    else if c = '\\' then some (.escape done, b)
    else if c.toNat < 0x20 then none
    else some (.text (c :: done), b)
  | .escape done =>
    if c = 'u' then some (.unit done 0 0, b)
    else (escaped? c).map fun c => (.text (c :: done), b)
  | .unit done count value => do
    let value := value * 16 + (← hexValue? c)
    if count < 3 then some (.unit done (count + 1) value, b)
    else (endUnit? done value).map (·, b)
  | .pairSlash done high => if c = '\\' then some (.pairLetter done high, b) else none
  | .pairLetter done high => if c = 'u' then some (.pairUnit done high 0 0, b) else none
  | .pairUnit done high count value => do
    let value := value * 16 + (← hexValue? c)
    if count < 3 then some (.pairUnit done high (count + 1) value, b)
    else (endPair? done high value).map (·, b)

/-- The value, once all characters have been read. -/
def finish? : Scan × Builder → Option Json
  | (.between, b) => b.result
  | (.bare done, b) => (endBare? b done).bind Builder.result
  | _ => none

end Reader

/-- The value that a JSON text denotes. -/
def read? (s : String) : Option Json :=
  (s.toList.foldlM Reader.step? (.between, Reader.Builder.start)).bind Reader.finish?

end SchemaDelta.Json
