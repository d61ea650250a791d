-- Reading values. From whatever layout a value is read, it comes out as it was put in, and
-- what is left is what stands behind the layout, up to blanks.
import TopologySync.Json.Value
import TopologySync.Proofs.Json.Numerals
import TopologySync.Proofs.Json.Texts

namespace TopologySync.Json

/-! ## Blanks -/

theorem skipBlanks_append {cs : List Char} (h : Blanks cs) (s : Bytes) :
    skipBlanks (utf8 cs ++ s) = skipBlanks s := by
  induction cs with
  | nil => rfl
  | cons c cs ih =>
    obtain ⟨hc, hcs⟩ := List.forall_mem_cons.1 h
    obtain ⟨hascii, hblank⟩ : c.toNat < 0x80 ∧ Byte.isBlank (UInt8.ofNat c.toNat) = true := by
      simp only [List.mem_cons, List.not_mem_nil, or_false] at hc
      rcases hc with rfl | rfl | rfl | rfl <;> decide
    rw [utf8_ascii hascii, List.cons_append, skipBlanks, List.dropWhile_cons_of_pos hblank]
    exact ih hcs

theorem skipBlanks_cons {b : UInt8} (h : Byte.isBlank b = false) (s : Bytes) :
    skipBlanks (b :: s) = b :: s :=
  List.dropWhile_cons_of_neg (by simp [h])

/-- Blanks do not go on with a numeral. -/
theorem stops_append {cs : List Char} (h : Blanks cs) {s : Bytes} (hs : Numeral.Stops s) :
    Numeral.Stops (utf8 cs ++ s) := by
  cases cs with
  | nil => exact hs
  | cons c cs =>
    have hc := h c List.mem_cons_self
    obtain ⟨hascii, hdigit, hpoint, hmark⟩ : c.toNat < 0x80 ∧
        Byte.isDigit (UInt8.ofNat c.toNat) = false ∧ UInt8.ofNat c.toNat ≠ Byte.point ∧
        Byte.isExponentMark (UInt8.ofNat c.toNat) = false := by
      simp only [List.mem_cons, List.not_mem_nil, or_false] at hc
      rcases hc with rfl | rfl | rfl | rfl <;> decide
    rw [utf8_ascii hascii]
    exact Numeral.stops_cons hdigit hpoint hmark _

theorem stops_mark {b : UInt8}
    (h : b ∈ [Byte.comma, Byte.colon, Byte.closeList, Byte.closeObject]) (s : Bytes) :
    Numeral.Stops (b :: s) := by
  simp only [List.mem_cons, List.not_mem_nil, or_false] at h
  rcases h with rfl | rfl | rfl | rfl <;>
    exact Numeral.stops_cons (by decide) (by decide) (by decide) s

theorem stops_nil : Numeral.Stops [] :=
  ⟨nofun, nofun, nofun⟩

/-! ## The reader without an account of lengths -/

/-- The value that starts with a byte, and what is left. -/
def readFrom (b : UInt8) (r : Bytes) : Json × Bytes :=
  if b = Byte.quote then ((readText r).1, (readText r).2.val)
  else if b = Byte.openList then match skipBlanks r with
    | [] => (list [missing .truncated] (some .truncated), [])
    | c :: r' =>
      if c = Byte.closeList then (list [] none, r')
      else (list (readItems r).1 (readItems r).2.1, (readItems r).2.2.val)
  else if b = Byte.openObject then match skipBlanks r with
    | [] => (object [(missing .truncated, missing .truncated)] (some .truncated), [])
    | c :: r' =>
      if c = Byte.closeObject then (object [] none, r')
      else (object (readMembers r).1 (readMembers r).2.1, (readMembers r).2.2.val)
  else if b = Byte.minus ∨ Byte.isDigit b then
    ((readNumber (b :: r)).1, (readNumber (b :: r)).2.val)
  else match word? b with
    | some (meaning, expected) =>
      ((readWord meaning expected r).1, (readWord meaning expected r).2.val)
    | none => (missing .malformed, [])

/-- The items of a list from one that has been read, and what is left. -/
def itemsFrom (item : Json) (after : Bytes) : List Json × Option Problem × Bytes :=
  match item.stop? with
  | some problem => ([item], some problem, [])
  | none => match skipBlanks after with
    | [] => ([item], some .truncated, [])
    | b :: r =>
      if b = Byte.comma then (item :: (readItems r).1, (readItems r).2.1, (readItems r).2.2.val)
      else if b = Byte.closeList then ([item], none, r)
      else ([item], some .malformed, [])

/-- The members of an object from one that has been read, and what is left. -/
def membersFrom (key value : Json) (after : Bytes) :
    List (Json × Json) × Option Problem × Bytes :=
  match value.stop? with
  | some problem => ([(key, value)], some problem, [])
  | none => match skipBlanks after with
    | [] => ([(key, value)], some .truncated, [])
    | b :: r =>
      if b = Byte.comma then
        ((key, value) :: (readMembers r).1, (readMembers r).2.1, (readMembers r).2.2.val)
      else if b = Byte.closeObject then ([(key, value)], none, r)
      else ([(key, value)], some .malformed, [])

variable {s r rest : Bytes}

theorem read_eq {b : UInt8} (h : skipBlanks s = b :: r) :
    ((read s).1, (read s).2.val) = readFrom b r := by
  rw [read.eq_def, readFrom]
  split
  next hnone => cases h.symm.trans hnone
  next b' r' hsome =>
    obtain ⟨rfl, rfl⟩ := List.cons.inj (h.symm.trans hsome)
    by_cases hquote : b = Byte.quote
    · rw [if_pos hquote, if_pos hquote]
      rfl
    rw [if_neg hquote, if_neg hquote]
    by_cases hlist : b = Byte.openList
    · rw [if_pos hlist, if_pos hlist]
      split <;> split <;> simp_all [Rest.nothing, Rest.weaken]
    rw [if_neg hlist, if_neg hlist]
    by_cases hobject : b = Byte.openObject
    · rw [if_pos hobject, if_pos hobject]
      split <;> split <;> simp_all [Rest.nothing, Rest.weaken]
    rw [if_neg hobject, if_neg hobject]
    by_cases hnumber : b = Byte.minus ∨ Byte.isDigit b
    · rw [if_pos hnumber, if_pos hnumber]
      rfl
    rw [if_neg hnumber, if_neg hnumber]
    rcases word? b with _ | ⟨meaning, expected⟩ <;> rfl

theorem readItems_eq (s : Bytes) :
    ((readItems s).1, (readItems s).2.1, (readItems s).2.2.val) =
      itemsFrom (read s).1 (read s).2.val := by
  rw [readItems.eq_def, itemsFrom]
  obtain ⟨item, after⟩ := read s
  simp only
  cases item.stop? with
  | some problem => rfl
  | none =>
    simp only
    split <;> split <;> simp_all [Rest.nothing, Rest.weaken]
    split <;> rfl

theorem readMembers_eq {key : Json} (hkey : (read s).1 = key) (hstop : key.keyStop? = none)
    (hcolon : skipBlanks (read s).2.val = Byte.colon :: r) :
    ((readMembers s).1, (readMembers s).2.1, (readMembers s).2.2.val) =
      membersFrom key (read r).1 (read r).2.val := by
  rw [readMembers.eq_def, membersFrom]
  subst hkey
  simp only [hstop]
  split
  next hnone => cases hcolon.symm.trans hnone
  next b r' hsome =>
    obtain ⟨rfl, rfl⟩ := List.cons.inj (hcolon.symm.trans hsome)
    rw [if_pos rfl]
    obtain ⟨value, after⟩ := read r
    simp only
    cases value.stop? with
    | some problem => rfl
    | none =>
      simp only
      split <;> split <;> simp_all [Rest.nothing, Rest.weaken]
      split <;> rfl

/-! ## What is read -/

/-- The value at the head of a text, and what is left up to blanks. -/
structure Reads (s : Bytes) (json : Json) (rest : Bytes) : Prop where
  value : (read s).1 = json
  rest : skipBlanks (read s).2.val = skipBlanks rest

/-- The items of a list whose end was met. -/
structure ReadsItems (s : Bytes) (items : List Json) (rest : Bytes) : Prop where
  items : (readItems s).1 = items
  stop : (readItems s).2.1 = none
  rest : (readItems s).2.2.val = rest

/-- The members of an object whose end was met. -/
structure ReadsMembers (s : Bytes) (members : List (Json × Json)) (rest : Bytes) : Prop where
  members : (readMembers s).1 = members
  stop : (readMembers s).2.1 = none
  rest : (readMembers s).2.2.val = rest

theorem Reads.of_readFrom {b : UInt8} {json : Json} (h : skipBlanks s = b :: r)
    (hread : readFrom b r = (json, rest)) : Reads s json rest := by
  obtain ⟨hvalue, hrest⟩ := Prod.mk.inj ((read_eq h).trans hread)
  exact ⟨hvalue, congrArg skipBlanks hrest⟩

/-! ## Scalars -/

theorem Reads.text {t : String} {cs : List Char} (h : Spells t.toList cs)
    (hs : skipBlanks s = Byte.quote :: (utf8 cs ++ Byte.quote :: rest)) :
    Reads s (ofText t) rest := by
  obtain ⟨hcontent, hrest⟩ := Piece.content_scan h rest
  refine .of_readFrom hs ?_
  rw [readFrom, if_pos rfl, readText]
  split
  next r' hscan =>
    rw [hcontent]
    cases hscan.symm.trans hrest
    rfl
  next hscan => cases hscan.symm.trans hrest

theorem Reads.word (b : UInt8) {meaning : Option Bool} (expected : Bytes)
    (hb : b ∈ [0x6e, 0x74, 0x66]) (h : word? b = some (meaning, expected))
    (hs : skipBlanks s = b :: (expected ++ rest)) : Reads s (.word (.ok meaning)) rest := by
  obtain ⟨hquote, hlist, hobject, hnumber⟩ : b ≠ Byte.quote ∧ b ≠ Byte.openList ∧
      b ≠ Byte.openObject ∧ ¬(b = Byte.minus ∨ Byte.isDigit b = true) := by
    simp only [List.mem_cons, List.not_mem_nil, or_false] at hb
    rcases hb with rfl | rfl | rfl <;> decide
  have hexpect : ∀ es, expect es (es ++ rest) = .ok rest := by
    intro es
    induction es with
    | nil => rfl
    | cons e es ih => rw [List.cons_append, expect, if_pos rfl, ih]
  refine .of_readFrom hs ?_
  rw [readFrom, if_neg hquote, if_neg hlist, if_neg hobject, if_neg hnumber, h]
  simp only [readWord]
  split
  next r' hread =>
    cases hread.symm.trans (hexpect expected)
    rfl
  next hread => cases hread.symm.trans (hexpect expected)

/-- A numeral starts with a digit or its sign. -/
theorem numeral_head {n : Numeral} {cs : List Char} (h : NumeralLayout n cs) :
    ∃ b r, utf8 cs = b :: r ∧ Byte.isBlank b = false ∧ b ≠ Byte.quote ∧ b ≠ Byte.openList ∧
      b ≠ Byte.openObject ∧ (b = Byte.minus ∨ Byte.isDigit b = true) := by
  cases h with
  | @parts _ fraction exponent hwhole _ _ _ =>
  split
  · exact ⟨Byte.minus, _, utf8_ascii (by decide) _, by decide⟩
  · obtain ⟨d, r, hd, hcs⟩ := Numeral.utf8_head hwhole
    have hall : ∀ d < 10, Byte.isBlank (Numeral.digitByte d) = false ∧
        Numeral.digitByte d ≠ Byte.quote ∧ Numeral.digitByte d ≠ Byte.openList ∧
        Numeral.digitByte d ≠ Byte.openObject ∧ (Numeral.digitByte d = Byte.minus ∨
          Byte.isDigit (Numeral.digitByte d) = true) := by decide
    refine ⟨Numeral.digitByte d, r ++ utf8 (fraction ++ exponent), ?_, hall d hd⟩
    rw [List.nil_append, utf8_append, hcs, List.cons_append]

theorem Reads.numeral {n : Numeral} {cs : List Char} (h : NumeralLayout n cs)
    (hrest : Numeral.Stops rest) (hs : skipBlanks s = skipBlanks (utf8 cs ++ rest)) :
    Reads s (ofNumeral n) rest := by
  obtain ⟨b, r, hcs, hblank, hquote, hlist, hobject, hnumber⟩ := numeral_head h
  have hread := Numeral.read_written h hrest
  rw [hcs, List.cons_append] at hs hread
  rw [skipBlanks_cons hblank] at hs
  refine .of_readFrom hs ?_
  rw [readFrom, if_neg hquote, if_neg hlist, if_neg hobject, if_pos hnumber, readNumber]
  split
  next n' rest' hread' =>
    cases hread'.symm.trans hread
    rfl
  next hread' => cases hread'.symm.trans hread

/-! ## Lists and objects -/

/-- Nothing stands here but the end of a list or an object. -/
def Closes (s : Bytes) : Prop :=
  skipBlanks s = [] ∨
    ∃ b r, skipBlanks s = b :: r ∧ (b = Byte.closeList ∨ b = Byte.closeObject)

theorem read_missing (h : Closes s) : ∃ problem, (read s).1 = .missing problem := by
  rcases h with hnone | ⟨b, r, hs, hb⟩
  · rw [read.eq_def]
    split
    next => exact ⟨_, rfl⟩
    next hsome => cases hnone.symm.trans hsome
  · have hread := congrArg Prod.fst (read_eq hs)
    refine ⟨.malformed, hread.trans ?_⟩
    rcases hb with rfl | rfl <;> rfl

theorem ReadsItems.not_closes {items : List Json} (h : ReadsItems s items rest) : ¬Closes s := by
  intro hclose
  obtain ⟨problem, hmissing⟩ := read_missing hclose
  have hstop := h.stop
  rw [readItems.eq_def] at hstop
  simp [hmissing, stop?] at hstop

theorem ReadsMembers.not_closes {members : List (Json × Json)}
    (h : ReadsMembers s members rest) : ¬Closes s := by
  intro hclose
  obtain ⟨problem, hmissing⟩ := read_missing hclose
  have hstop := h.stop
  rw [readMembers.eq_def] at hstop
  simp [hmissing, keyStop?] at hstop

theorem Reads.emptyList (hs : skipBlanks s = Byte.openList :: r)
    (hclose : skipBlanks r = Byte.closeList :: rest) : Reads s (.list [] none) rest := by
  refine .of_readFrom hs ?_
  rw [readFrom, if_neg (by decide), if_pos rfl, hclose]
  rfl

theorem Reads.list {items : List Json} (hs : skipBlanks s = Byte.openList :: r)
    (hitems : ReadsItems r items rest) : Reads s (.list items none) rest := by
  refine .of_readFrom hs ?_
  rw [readFrom, if_neg (by decide), if_pos rfl]
  split
  next hnone => exact absurd (Or.inl hnone) hitems.not_closes
  next c r' hc =>
    have hne : c ≠ Byte.closeList :=
      fun hclose => hitems.not_closes (Or.inr ⟨c, r', hc, Or.inl hclose⟩)
    rw [if_neg hne, hitems.items, hitems.stop, hitems.rest]

theorem Reads.emptyObject (hs : skipBlanks s = Byte.openObject :: r)
    (hclose : skipBlanks r = Byte.closeObject :: rest) : Reads s (.object [] none) rest := by
  refine .of_readFrom hs ?_
  rw [readFrom, if_neg (by decide), if_neg (by decide), if_pos rfl, hclose]
  rfl

theorem Reads.object {members : List (Json × Json)} (hs : skipBlanks s = Byte.openObject :: r)
    (hmembers : ReadsMembers r members rest) : Reads s (.object members none) rest := by
  refine .of_readFrom hs ?_
  rw [readFrom, if_neg (by decide), if_neg (by decide), if_pos rfl]
  split
  next hnone => exact absurd (Or.inl hnone) hmembers.not_closes
  next c r' hc =>
    have hne : c ≠ Byte.closeObject :=
      fun hclose => hmembers.not_closes (Or.inr ⟨c, r', hc, Or.inr hclose⟩)
    rw [if_neg hne, hmembers.members, hmembers.stop, hmembers.rest]

theorem ReadsItems.of_itemsFrom {item : Json} {items : List Json}
    (hitem : Reads s item r) (hread : ∀ after, skipBlanks after = skipBlanks r →
      itemsFrom item after = (items, none, rest)) : ReadsItems s items rest := by
  have hall := (readItems_eq s).trans (hitem.value ▸ hread _ hitem.rest)
  simp only [Prod.mk.injEq] at hall
  exact ⟨hall.1, hall.2.1, hall.2.2⟩

/-- The last item is followed by the end of the list. -/
theorem ReadsItems.last {item : Json} (hitem : Reads s item (Byte.closeList :: rest))
    (hstop : item.stop? = none) : ReadsItems s [item] rest := by
  refine .of_itemsFrom hitem (fun after hafter => ?_)
  rw [skipBlanks_cons (by decide)] at hafter
  simp [itemsFrom, hstop, hafter, show Byte.closeList ≠ Byte.comma by decide]

theorem ReadsItems.more {item : Json} {items : List Json} (hitem : Reads s item (Byte.comma :: r))
    (hstop : item.stop? = none) (hmore : ReadsItems r items rest) :
    ReadsItems s (item :: items) rest := by
  refine .of_itemsFrom hitem (fun after hafter => ?_)
  rw [skipBlanks_cons (by decide)] at hafter
  simp [itemsFrom, hstop, hafter, hmore.items, hmore.stop, hmore.rest]

theorem ReadsMembers.of_membersFrom {name : String} {value : Json} {members : List (Json × Json)}
    {colon : Bytes} (hkey : Reads s (ofText name) (Byte.colon :: colon))
    (hvalue : Reads colon value r) (hread : ∀ after, skipBlanks after = skipBlanks r →
      membersFrom (ofText name) value after = (members, none, rest)) :
    ReadsMembers s members rest := by
  have hcolon := hkey.rest
  rw [skipBlanks_cons (by decide)] at hcolon
  have hall := (readMembers_eq hkey.value rfl hcolon).trans (hvalue.value ▸ hread _ hvalue.rest)
  simp only [Prod.mk.injEq] at hall
  exact ⟨hall.1, hall.2.1, hall.2.2⟩

/-- The last member is followed by the end of the object. -/
theorem ReadsMembers.last {name : String} {value : Json} {colon : Bytes}
    (hkey : Reads s (ofText name) (Byte.colon :: colon))
    (hvalue : Reads colon value (Byte.closeObject :: rest)) (hstop : value.stop? = none) :
    ReadsMembers s [(ofText name, value)] rest := by
  refine .of_membersFrom hkey hvalue (fun after hafter => ?_)
  rw [skipBlanks_cons (by decide)] at hafter
  simp [membersFrom, hstop, hafter, show Byte.closeObject ≠ Byte.comma by decide]

theorem ReadsMembers.more {name : String} {value : Json} {members : List (Json × Json)}
    {colon : Bytes} (hkey : Reads s (ofText name) (Byte.colon :: colon))
    (hvalue : Reads colon value (Byte.comma :: r)) (hstop : value.stop? = none)
    (hmore : ReadsMembers r members rest) :
    ReadsMembers s ((ofText name, value) :: members) rest := by
  refine .of_membersFrom hkey hvalue (fun after hafter => ?_)
  rw [skipBlanks_cons (by decide)] at hafter
  simp [membersFrom, hstop, hafter, hmore.members, hmore.stop, hmore.rest]

/-! ## Layouts -/

/-- The part of a document is read from a text, whatever blanks stand in front of it. -/
def Part.IsRead : Part → List Char → Prop
  | .value json, cs => json.stop? = none ∧ ∀ s rest, Numeral.Stops rest →
      skipBlanks s = skipBlanks (utf8 cs ++ rest) → Reads s json rest
  | .items parts, cs => ∀ rest, ReadsItems (utf8 cs ++ Byte.closeList :: rest) parts rest
  | .members parts, cs =>
    ∀ rest, ReadsMembers (utf8 cs ++ Byte.closeObject :: rest) (named parts) rest

/-- A part between two characters that are one byte each. -/
theorem skipBlanks_between {first last : Char} {b c : UInt8} {cs : List Char}
    (hfirst : String.utf8EncodeChar first = [b]) (hlast : String.utf8EncodeChar last = [c])
    (hblank : Byte.isBlank b = false) (s : Bytes) :
    skipBlanks (utf8 (first :: (cs ++ [last])) ++ s) = b :: (utf8 cs ++ c :: s) := by
  rw [utf8_cons, utf8_append, utf8_cons, utf8_nil, hfirst, hlast]
  simpa using skipBlanks_cons hblank (utf8 cs ++ c :: s)

/-- A part of a document is read from each of its layouts. -/
theorem Layout.isRead {part : Part} {cs : List Char} (h : Layout part cs) : part.IsRead cs := by
  induction h with
  | null =>
    exact ⟨rfl, fun s rest _ hs =>
      .word 0x6e [0x75, 0x6c, 0x6c] (by decide) rfl (hs.trans rfl)⟩
  | true =>
    exact ⟨rfl, fun s rest _ hs =>
      .word 0x74 [0x72, 0x75, 0x65] (by decide) rfl (hs.trans rfl)⟩
  | false =>
    exact ⟨rfl, fun s rest _ hs =>
      .word 0x66 [0x61, 0x6c, 0x73, 0x65] (by decide) rfl (hs.trans rfl)⟩
  | natural k =>
    obtain ⟨n, hn, hvalue⟩ := Numeral.natural_written k
    refine ⟨rfl, fun s rest hrest hs => ?_⟩
    have hread := Reads.numeral hn hrest hs
    rwa [ofNumeral, hvalue] at hread
  | numeral h => exact ⟨rfl, fun s rest hrest hs => .numeral h hrest hs⟩
  | text h =>
    exact ⟨rfl, fun s rest _ hs => .text h (hs.trans (skipBlanks_between rfl rfl rfl rest))⟩
  | blanks hbefore _ hafter ih =>
    refine ⟨ih.1, fun s rest hrest hs => ?_⟩
    rw [utf8_append, utf8_append, List.append_assoc, skipBlanks_append hbefore,
      List.append_assoc] at hs
    obtain ⟨hvalue, hleft⟩ := ih.2 s _ (stops_append hafter hrest) hs
    exact ⟨hvalue, hleft.trans (skipBlanks_append hafter rest)⟩
  | emptyList hblanks =>
    exact ⟨rfl, fun s rest _ hs => .emptyList (hs.trans (skipBlanks_between rfl rfl rfl rest))
      ((skipBlanks_append hblanks _).trans (skipBlanks_cons rfl rest))⟩
  | list _ ih =>
    exact ⟨rfl, fun s rest _ hs =>
      .list (hs.trans (skipBlanks_between rfl rfl rfl rest)) (ih rest)⟩
  | emptyObject hblanks =>
    exact ⟨rfl, fun s rest _ hs => .emptyObject (hs.trans (skipBlanks_between rfl rfl rfl rest))
      ((skipBlanks_append hblanks _).trans (skipBlanks_cons rfl rest))⟩
  | object _ ih =>
    exact ⟨rfl, fun s rest _ hs =>
      .object (hs.trans (skipBlanks_between rfl rfl rfl rest)) (ih rest)⟩
  | item _ ih =>
    intro rest
    exact .last (ih.2 _ _ (stops_mark (by decide) rest) rfl) ih.1
  | items _ _ ih ihrest =>
    intro rest
    rw [utf8_append, List.append_assoc]
    exact .more (ih.2 _ _ (stops_mark (by decide) _) rfl) ih.1 (ihrest rest)
  | member _ _ ihkey ih =>
    intro rest
    rw [utf8_append, List.append_assoc]
    exact .last (ihkey.2 _ _ (stops_mark (by decide) _) rfl)
      (ih.2 _ _ (stops_mark (by decide) rest) rfl) ih.1
  | members _ _ _ ihkey ih ihrest =>
    intro rest
    rw [utf8_append, utf8_cons, utf8_append, utf8_cons]
    simp only [List.append_assoc]
    exact .more (ihkey.2 _ _ (stops_mark (by decide) _) rfl)
      (ih.2 _ _ (stops_mark (by decide) _) rfl) ih.1 (ihrest rest)

/-- A document is decoded as the value that it lays out. -/
theorem decode_layout {α : Type} {json : Json} {cs : List Char} (h : Layout (.value json) cs)
    (decoder : Json → Except Problem α) : decode decoder (utf8 cs) = decoder json := by
  obtain ⟨hvalue, hrest⟩ := h.isRead.2 (utf8 cs) [] stops_nil (by rw [List.append_nil])
  have hblank : (skipBlanks (read (utf8 cs)).2.val).isEmpty = true := by
    rw [hrest]
    rfl
  rw [decode]
  simp only [hvalue, hblank, if_true]
  cases decoder json <;> rfl

end TopologySync.Json
