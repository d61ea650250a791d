-- Reading a value from the head of a text. The reader never fails: a
-- fault becomes part of the value, at the place where it was met, and
-- ends the reading there. Between the parts of a value blanks are free.
import TopologySync.Json.Number
import TopologySync.Json.Text

namespace TopologySync.Json

/-- What is left of a text of a given length. -/
abbrev Rest (length : Nat) := { rest : Bytes // rest.length ≤ length }

namespace Rest

/-- Nothing is left once a fault was met. -/
def nothing (length : Nat) : Rest length :=
  ⟨[], Nat.zero_le _⟩

def weaken {m n : Nat} (rest : Rest m) (h : m ≤ n) : Rest n :=
  ⟨rest.val, Nat.le_trans rest.property h⟩

end Rest

/-! ## Blanks and words -/

def skipBlanks (s : Bytes) : Bytes :=
  s.dropWhile Byte.isBlank

theorem skipBlanks_length (s : Bytes) : (skipBlanks s).length ≤ s.length :=
  (List.dropWhile_suffix _).length_le

theorem length_of_skipBlanks {s r : Bytes} {b : UInt8} (h : skipBlanks s = b :: r) :
    r.length < s.length := by
  have := skipBlanks_length s
  rw [h, List.length_cons] at this
  exact this

/-- What follows the expected bytes. -/
def expect : Bytes → Bytes → Except Problem Bytes
  | [], s => .ok s
  | _ :: _, [] => .error .truncated
  | e :: es, b :: r => if e = b then expect es r else .error .malformed

theorem length_of_expect {es s r : Bytes} (h : expect es s = .ok r) : r.length ≤ s.length := by
  fun_induction expect es s with
  | case1 => cases h; exact Nat.le_refl _
  | case2 | case4 => cases h
  | case3 _ _ _ ih => exact Nat.le_succ_of_le (ih h)

/-- The three words by their first byte: what they say, and their other bytes. -/
def word? (b : UInt8) : Option (Option Bool × Bytes) :=
  if b = 0x6e then some (none, [0x75, 0x6c, 0x6c])
  else if b = 0x74 then some (some true, [0x72, 0x75, 0x65])
  else if b = 0x66 then some (some false, [0x61, 0x6c, 0x73, 0x65])
  else none

def readWord (meaning : Option Bool) (expected s : Bytes) : Json × Rest s.length :=
  match h : expect expected s with
  | .ok rest => (word (.ok meaning), ⟨rest, length_of_expect h⟩)
  | .error problem => (word (.error problem), .nothing _)

/-! ## Scalars -/

/-- A number is cut off at the end of the text for one who wants it, and
malformed for one who only passes over it. -/
def readNumber (s : Bytes) : Json × Rest s.length :=
  match h : Numeral.read s with
  | .ok (numeral, rest) => (number numeral.value none, ⟨rest, Numeral.read_length h⟩)
  | .error problem => (number (.error problem) (some .malformed), .nothing _)

/-- A text after its opening quote. -/
def readText (s : Bytes) : Json × Rest s.length :=
  match h : (Piece.scan s).2 with
  | .ok rest => (text (Piece.content (Piece.scan s)) none, ⟨rest, Nat.le_of_lt (Piece.scan_shorter h)⟩)
  | .error problem => (text (Piece.content (Piece.scan s)) (some problem), .nothing _)

/-! ## Values -/

mutual

/-- The value at the head of a text, and what follows it. -/
def read (s : Bytes) : Json × Rest s.length :=
  match h : skipBlanks s with
  | [] => (missing .truncated, .nothing _)
  | b :: r =>
    have shorter := length_of_skipBlanks h
    if b = Byte.quote then
      let (value, rest) := readText r
      (value, rest.weaken (Nat.le_of_lt shorter))
    else if b = Byte.openList then
      match h' : skipBlanks r with
      | [] => (list [missing .truncated] (some .truncated), .nothing _)
      | c :: r' =>
        if c = Byte.closeList then
          (list [] none, ⟨r', by have := length_of_skipBlanks h'; omega⟩)
        else
          let (items, stop, rest) := readItems r
          (list items stop, rest.weaken (Nat.le_of_lt shorter))
    else if b = Byte.openObject then
      match h' : skipBlanks r with
      | [] => (object [(missing .truncated, missing .truncated)] (some .truncated), .nothing _)
      | c :: r' =>
        if c = Byte.closeObject then
          (object [] none, ⟨r', by have := length_of_skipBlanks h'; omega⟩)
        else
          let (members, stop, rest) := readMembers r
          (object members stop, rest.weaken (Nat.le_of_lt shorter))
    else if b = Byte.minus ∨ Byte.isDigit b then
      let (value, rest) := readNumber (b :: r)
      (value, rest.weaken (by simp only [List.length_cons]; omega))
    else match word? b with
      | some (meaning, expected) =>
        let (value, rest) := readWord meaning expected r
        (value, rest.weaken (Nat.le_of_lt shorter))
      | none => (missing .malformed, .nothing _)
termination_by 2 * s.length

/-- The items of a list from the first one on, up to its end. -/
def readItems (s : Bytes) : List Json × Option Problem × Rest s.length :=
  let (item, rest) := read s
  match item.stop? with
  | some problem => ([item], some problem, .nothing _)
  | none => match h : skipBlanks rest.val with
    | [] => ([item], some .truncated, .nothing _)
    | b :: r =>
      have shorter := Nat.lt_of_lt_of_le (length_of_skipBlanks h) rest.property
      if b = Byte.comma then
        let (items, stop, rest) := readItems r
        (item :: items, stop, rest.weaken (Nat.le_of_lt shorter))
      else if b = Byte.closeList then ([item], none, ⟨r, Nat.le_of_lt shorter⟩)
      else ([item], some .malformed, .nothing _)
termination_by 2 * s.length + 1

/-- The members of an object from the first one on, up to its end. -/
def readMembers (s : Bytes) : List (Json × Json) × Option Problem × Rest s.length :=
  let (key, rest) := read s
  match key.keyStop? with
  | some problem => ([(key, missing problem)], some problem, .nothing _)
  | none => match h : skipBlanks rest.val with
    | [] => ([(key, missing .truncated)], some .truncated, .nothing _)
    | b :: r =>
      have shorter := Nat.lt_of_lt_of_le (length_of_skipBlanks h) rest.property
      if b = Byte.colon then
        let (value, rest) := read r
        match value.stop? with
        | some problem => ([(key, value)], some problem, .nothing _)
        | none => match h' : skipBlanks rest.val with
          | [] => ([(key, value)], some .truncated, .nothing _)
          | b :: r' =>
            have shorter' := Nat.lt_of_lt_of_le (length_of_skipBlanks h') rest.property
            if b = Byte.comma then
              let (members, stop, rest) := readMembers r'
              ((key, value) :: members, stop, rest.weaken (by omega))
            else if b = Byte.closeObject then ([(key, value)], none, ⟨r', by omega⟩)
            else ([(key, value)], some .malformed, .nothing _)
      else ([(key, missing .malformed)], some .malformed, .nothing _)
termination_by 2 * s.length + 1

end

/-! ## Whole documents -/

/-- Reads a document as one value with nothing but blanks around it. -/
def decode {α : Type} (value : Json → Except Problem α) (s : Bytes) : Except Problem α := do
  let (json, rest) := read s
  let decoded ← value json
  if (skipBlanks rest.val).isEmpty then return decoded else throw .malformed

end TopologySync.Json
