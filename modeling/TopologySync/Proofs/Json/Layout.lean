-- How values may be written as JSON. One value has many layouts: blanks are free between its
-- parts, a character of a text may stand as it is or behind an escape, and a number may have
-- a fraction and an exponent. What a layout says is given here apart from how it is read.
import TopologySync.Json.Number

namespace TopologySync.Json

/-! ## Texts -/

/-- The four blanks of JSON, any number of them. -/
def Blanks (cs : List Char) : Prop :=
  ∀ c ∈ cs, c ∈ [' ', '\n', '\t', '\r']

instance (cs : List Char) : Decidable (Blanks cs) :=
  List.decidableBAll _ cs

/-- The letter of each short escape, and the character that it stands for. -/
def shortEscapes : List (Char × Char) :=
  [('"', '"'), ('\\', '\\'), ('/', '/'), ('b', '\x08'), ('f', '\x0c'), ('n', '\n'), ('r', '\r'),
    ('t', '\t')]

/-- A hexadecimal digit, of either case. -/
def IsHexDigit (n : Nat) (c : Char) : Prop :=
  n < 16 ∧ (c = n.digitChar ∨ c = n.digitChar.toUpper)

instance (n : Nat) (c : Char) : Decidable (IsHexDigit n c) :=
  inferInstanceAs (Decidable (n < 16 ∧ (c = n.digitChar ∨ c = n.digitChar.toUpper)))

/-- The long escape of a UTF-16 unit. -/
inductive LongEscape : Nat → List Char → Prop where
  | digits {n₁ n₂ n₃ n₄ : Nat} {c₁ c₂ c₃ c₄ : Char} (h₁ : IsHexDigit n₁ c₁)
    (h₂ : IsHexDigit n₂ c₂) (h₃ : IsHexDigit n₃ c₃) (h₄ : IsHexDigit n₄ c₄) :
    LongEscape (((n₁ * 16 + n₂) * 16 + n₃) * 16 + n₄) ['\\', 'u', c₁, c₂, c₃, c₄]

/-- The ways to write a character of a text. -/
inductive Spelling : Char → List Char → Prop where
  | plain {c : Char} (hshown : 0x20 ≤ c.toNat) (hquote : c ≠ '"') (hslash : c ≠ '\\') :
    Spelling c [c]
  | short {letter c : Char} (h : (letter, c) ∈ shortEscapes) : Spelling c ['\\', letter]
  | long {c : Char} {cs : List Char} (h : LongEscape c.toNat cs) : Spelling c cs
  /-- The high and the low UTF-16 unit of a character that one unit cannot hold. -/
  | pair {c : Char} {high low : List Char} (h : 0x10000 ≤ c.toNat)
    (hhigh : LongEscape (0xD800 + (c.toNat - 0x10000) / 0x400) high)
    (hlow : LongEscape (0xDC00 + (c.toNat - 0x10000) % 0x400) low) : Spelling c (high ++ low)

/-- The ways to write the characters of a text one after another. -/
inductive Spells : List Char → List Char → Prop where
  | nil : Spells [] []
  | cons {c : Char} {cs first rest : List Char} (hfirst : Spelling c first)
    (hrest : Spells cs rest) : Spells (c :: cs) (first ++ rest)

/-- Characters that need no escape. -/
def Unescaped (cs : List Char) : Prop :=
  ∀ c ∈ cs, 0x20 ≤ c.toNat ∧ c ≠ '"' ∧ c ≠ '\\'

instance (cs : List Char) : Decidable (Unescaped cs) :=
  List.decidableBAll _ cs

/-- Characters that need no escape may stand as they are. -/
theorem Spells.plain {cs : List Char} (h : Unescaped cs) : Spells cs cs := by
  induction cs with
  | nil => exact .nil
  | cons c cs ih =>
    obtain ⟨⟨hshown, hquote, hslash⟩, hcs⟩ := List.forall_mem_cons.1 h
    exact @Spells.cons _ _ [c] _ (.plain hshown hquote hslash) (ih hcs)

/-! ## Numbers -/

/-- Digits as they are written, at least one. -/
structure IsDigits (ds : List Nat) (cs : List Char) : Prop where
  some : ds ≠ []
  small : ∀ d ∈ ds, d < 10
  written : cs = ds.map Nat.digitChar

inductive FractionLayout : Option (List Nat) → List Char → Prop where
  | none : FractionLayout none []
  | some {ds : List Nat} {cs : List Char} (h : IsDigits ds cs) :
    FractionLayout (some ds) ('.' :: cs)

/-- The sign of an exponent: a plus may be left out. -/
inductive SignLayout : Bool → List Char → Prop where
  | none : SignLayout false []
  | plus : SignLayout false ['+']
  | minus : SignLayout true ['-']

inductive ExponentLayout : Option (Bool × List Nat) → List Char → Prop where
  | none : ExponentLayout none []
  | some {mark : Char} {negative : Bool} {ds : List Nat} {sign cs : List Char}
    (hmark : mark = 'e' ∨ mark = 'E') (hsign : SignLayout negative sign) (h : IsDigits ds cs) :
    ExponentLayout (some (negative, ds)) (mark :: (sign ++ cs))

/-- A numeral part by part. Its whole part has no leading zero. -/
inductive NumeralLayout : Numeral → List Char → Prop where
  | parts {n : Numeral} {whole fraction exponent : List Char} (hwhole : IsDigits n.whole whole)
    (hzero : n.whole.head? = some 0 → n.whole = [0])
    (hfraction : FractionLayout n.fraction fraction)
    (hexponent : ExponentLayout n.exponent exponent) :
    NumeralLayout n ((if n.negative then ['-'] else []) ++ (whole ++ (fraction ++ exponent)))

/-- A whole number and an exponent. -/
theorem NumeralLayout.scientific {ds es : List Nat} {whole exponent : List Char}
    (hds : IsDigits ds whole) (hzero : ds.head? = some 0 → ds = [0]) (hes : IsDigits es exponent) :
    NumeralLayout { negative := false, whole := ds, exponent := some (false, es) }
      (whole ++ 'e' :: exponent) :=
  @parts { negative := false, whole := ds, exponent := some (false, es) } whole []
    ('e' :: exponent) hds hzero .none (@ExponentLayout.some 'e' false es [] exponent (.inl rfl)
      .none hes)

/-! ## Values -/

/-- A text that has come to its end. -/
def ofText (s : String) : Json :=
  .text (.ok s) none

/-- A whole number that fits 64 bits. -/
def ofNatural (k : UInt64) : Json :=
  .number (.ok (.natural k)) none

/-- The number that a numeral stands for, or the fault that it has none. -/
def ofNumeral (n : Numeral) : Json :=
  .number n.value none

/-- Members with their names as they stand in a text. -/
def named (members : List (String × Json)) : List (Json × Json) :=
  members.map (fun member => (ofText member.1, member.2))

theorem named_cons (member : String × Json) (members : List (String × Json)) :
    named (member :: members) = (ofText member.1, member.2) :: named members :=
  rfl

theorem named_append (members more : List (String × Json)) :
    named (members ++ more) = named members ++ named more :=
  List.map_append

/-- An object with members of these names. -/
def ofMembers (members : List (String × Json)) : Json :=
  .object (named members) none

/-- A part of a document: a value, or what stands inside a list or an object. -/
inductive Part where
  | value (json : Json)
  | items (items : List Json)
  | members (members : List (String × Json))

/-- The layouts of a part of a document. -/
inductive Layout : Part → List Char → Prop where
  | null : Layout (.value (.word (.ok none))) ['n', 'u', 'l', 'l']
  | true : Layout (.value (.word (.ok (some true)))) ['t', 'r', 'u', 'e']
  | false : Layout (.value (.word (.ok (some false)))) ['f', 'a', 'l', 's', 'e']
  | natural (k : UInt64) : Layout (.value (ofNatural k)) (Nat.toDigits 10 k.toNat)
  | numeral {n : Numeral} {cs : List Char} (h : NumeralLayout n cs) :
    Layout (.value (ofNumeral n)) cs
  | text {s : String} {cs : List Char} (h : Spells s.toList cs) :
    Layout (.value (ofText s)) ('"' :: (cs ++ ['"']))
  | blanks {json : Json} {before cs after : List Char} (hbefore : Blanks before)
    (h : Layout (.value json) cs) (hafter : Blanks after) :
    Layout (.value json) (before ++ (cs ++ after))
  | emptyList {cs : List Char} (h : Blanks cs) :
    Layout (.value (.list [] none)) ('[' :: (cs ++ [']']))
  | list {items : List Json} {cs : List Char} (h : Layout (.items items) cs) :
    Layout (.value (.list items none)) ('[' :: (cs ++ [']']))
  | emptyObject {cs : List Char} (h : Blanks cs) :
    Layout (.value (ofMembers [])) ('{' :: (cs ++ ['}']))
  | object {members : List (String × Json)} {cs : List Char} (h : Layout (.members members) cs) :
    Layout (.value (ofMembers members)) ('{' :: (cs ++ ['}']))
  | item {json : Json} {cs : List Char} (h : Layout (.value json) cs) : Layout (.items [json]) cs
  | items {json : Json} {items : List Json} {cs rest : List Char} (h : Layout (.value json) cs)
    (hrest : Layout (.items items) rest) : Layout (.items (json :: items)) (cs ++ ',' :: rest)
  | member {name : String} {json : Json} {key cs : List Char}
    (hkey : Layout (.value (ofText name)) key) (h : Layout (.value json) cs) :
    Layout (.members [(name, json)]) (key ++ ':' :: cs)
  | members {name : String} {json : Json} {members : List (String × Json)}
    {key cs rest : List Char} (hkey : Layout (.value (ofText name)) key)
    (h : Layout (.value json) cs) (hrest : Layout (.members members) rest) :
    Layout (.members ((name, json) :: members)) (key ++ ':' :: (cs ++ ',' :: rest))

theorem Layout.plain (s : String) (h : Unescaped s.toList) :
    Layout (.value (ofText s)) ('"' :: (s.toList ++ ['"'])) :=
  .text (.plain h)

end TopologySync.Json
