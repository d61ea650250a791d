-- Records from the members of an object. The members stand in any order, fields that hold
-- their default may be left out, and members of other names are passed over.
import TopologySync.Json.Decoder
import TopologySync.Proofs.Json.Layout

namespace TopologySync.Json

/-! ## What members say -/

/-- What one field of a record is told by: a member of its name with a value that tells it, or
no member at all if the field may be spared. -/
structure Entry where
  name : String
  toldBy : Json → Prop
  spare : Prop := False

namespace Entry

def text (name s : String) : Entry where
  name := name
  toldBy json := json = ofText s

def natural (name : String) (k : UInt64) : Entry where
  name := name
  toldBy json := json = ofNatural k

/-- A double is told by any number that converts to it. -/
def double (name : String) (x : Float) : Entry where
  name := name
  toldBy json := ∃ value : Number, json = .number (.ok value) none ∧ value.toFloat = x

/-- The field may be left out. -/
def spared (entry : Entry) (spare : Prop) : Entry :=
  { entry with spare }

end Entry

/-- A value with no parts, which may be a number that overflows. -/
inductive IsScalar : Json → Prop where
  | word (content : Option Bool) : IsScalar (.word (.ok content))
  | text (s : String) : IsScalar (ofText s)
  | natural (k : UInt64) : IsScalar (ofNatural k)
  | numeral (n : Numeral) : IsScalar (ofNumeral n)

/-- The members tell all entries, each at most once, and all other members are scalars. -/
structure Shows (members : List (String × Json)) (entries : List Entry) : Prop where
  once : ∀ entry ∈ entries, (members.map Prod.fst).count entry.name ≤ 1
  told : ∀ entry ∈ entries, ∀ member ∈ members, member.1 = entry.name → entry.toldBy member.2
  spared : ∀ entry ∈ entries, entry.name ∉ members.map Prod.fst → entry.spare
  others : ∀ member ∈ members, member.1 ∉ entries.map Entry.name → IsScalar member.2

/-- The member that tells an entry can be taken out from among the others. -/
theorem Shows.uncons {members : List (String × Json)} {entry : Entry} {entries : List Entry}
    (h : Shows members (entry :: entries)) (hspare : ¬entry.spare)
    (hnew : entry.name ∉ entries.map Entry.name) :
    ∃ before value after, members = before ++ (entry.name, value) :: after ∧ entry.toldBy value ∧
      (∀ member ∈ before ++ after, member.1 ≠ entry.name) ∧ Shows (before ++ after) entries := by
  have hmem : entry.name ∈ members.map Prod.fst :=
    Classical.byContradiction (fun hmissing => hspare (h.spared entry List.mem_cons_self hmissing))
  obtain ⟨⟨name, value⟩, hmember, hname⟩ := List.mem_map.1 hmem
  obtain ⟨before, after, rfl⟩ := List.append_of_mem hmember
  cases hname
  have honly : ∀ member ∈ before ++ after, member.1 ≠ entry.name := by
    have honce := h.once entry List.mem_cons_self
    intro member hmem hsame
    have hpos : 0 < ((before ++ after).map Prod.fst).count entry.name :=
      List.count_pos_iff.2 (hsame ▸ List.mem_map_of_mem hmem)
    simp only [List.map_append, List.map_cons, List.count_append, List.count_cons_self]
      at honce hpos
    omega
  have hother : ∀ member ∈ before ++ after, member ∈ before ++ (entry.name, value) :: after := by
    grind
  refine ⟨before, value, after, rfl, h.told entry List.mem_cons_self _ hmember rfl, honly, ?_⟩
  constructor
  · intro entry' hentry
    refine Nat.le_trans ?_ (h.once entry' (List.mem_cons_of_mem _ hentry))
    simp only [List.map_append, List.map_cons, List.count_append]
    exact Nat.add_le_add_left List.count_le_count_cons _
  · exact fun entry' hentry member hmem =>
      h.told entry' (List.mem_cons_of_mem _ hentry) member (hother member hmem)
  · intro entry' hentry hmissing
    refine h.spared entry' (List.mem_cons_of_mem _ hentry) ?_
    have hne : entry'.name ≠ entry.name := fun hsame => hnew (hsame ▸ List.mem_map_of_mem hentry)
    simp only [List.map_append, List.map_cons, List.mem_append, List.mem_cons] at hmissing ⊢
    grind
  · intro member hmem hunknown
    refine h.others member (hother member hmem) ?_
    rw [List.map_cons, List.mem_cons, not_or]
    exact ⟨honly member hmem, hunknown⟩

/-! ## Fields -/

/-- The entries tell a record, field by field. -/
inductive Told {β : Type} : {αs : List Type} → Fields αs → Arrow αs β → List Entry → β → Prop where
  | nil {b : β} : Told .nil b [] b
  | cons {α : Type} {αs : List Type} {field : Field α} {fields : Fields αs}
    {make : α → Arrow αs β} {a : α} {entry : Entry} {entries : List Entry} {b : β}
    (hname : entry.name = field.name) (htold : ∀ json, entry.toldBy json → field.value json = .ok a)
    (hspare : entry.spare → field.default? = some a) (hrest : Told fields (make a) entries b) :
    Told (.cons field fields) make (entry :: entries) b

namespace Told

variable {β : Type} {αs : List Type} {fields : Fields αs} {make : Arrow αs β}
  {entries : List Entry} {b : β}

theorem names (h : Told fields make entries b) :
    fields.checks.map Prod.fst = entries.map Entry.name := by
  induction h with
  | nil => rfl
  | cons hname _ _ _ ih => rw [Fields.checks, List.map_cons, List.map_cons, ih, hname]

/-- What is said by an entry passes the check of its field. -/
theorem check (h : Told fields make entries b) {name : String}
    {check : Json → Except Problem Unit} (hcheck : fields.checks.lookup name = some check) :
    ∃ entry ∈ entries, entry.name = name ∧ ∀ json, entry.toldBy json → check json = .ok () := by
  induction h with
  | nil => cases hcheck
  | @cons α αs field fields make a entry entries b hname htold _ _ ih =>
    rw [Fields.checks, List.lookup_cons] at hcheck
    split at hcheck
    next hsame =>
      refine ⟨entry, List.mem_cons_self, hname.trans (beq_iff_eq.1 hsame).symm, fun json h => ?_⟩
      cases hcheck
      show (field.value json).map _ = _
      rw [htold json h]
      rfl
    next =>
      obtain ⟨entry', hmem, hrest⟩ := ih hcheck
      exact ⟨entry', List.mem_cons_of_mem _ hmem, hrest⟩

/-- Each field is filled with what its entry is told by, or with its default. -/
theorem fill (h : Told fields make entries b) (slot : String → Option Json)
    (htold : ∀ entry ∈ entries, ∀ json, slot entry.name = some json → entry.toldBy json)
    (hspared : ∀ entry ∈ entries, slot entry.name = none → entry.spare) :
    fields.fill make (entries.map (fun entry => slot entry.name)) = .ok b := by
  induction h with
  | nil => rfl
  | @cons α αs field fields make a entry entries b _ hvalue hdefault _ ih =>
    obtain ⟨hfirst, htold⟩ := List.forall_mem_cons.1 htold
    obtain ⟨hspare, hspared⟩ := List.forall_mem_cons.1 hspared
    have hfill : field.fill (slot entry.name) = .ok a := by
      cases hslot : slot entry.name with
      | some json => exact hvalue json (hfirst json hslot)
      | none => rw [Field.fill, hdefault (hspare hslot)]
    show (field.fill (slot entry.name) >>= fun a =>
      fields.fill (make a) (entries.map (fun entry => slot entry.name))) = .ok b
    rw [hfill]
    exact ih htold hspared

/-! ## Objects -/

theorem not_mem_of_lookup {α : Type} {name : String} {list : List (String × α)}
    (h : list.lookup name = none) : name ∉ list.map Prod.fst := by
  rw [List.lookup_eq_none_iff] at h
  rintro hmem
  obtain ⟨member, hmember, rfl⟩ := List.mem_map.1 hmem
  simpa using h member hmember

theorem mem_of_lookup {α : Type} {name : String} {value : α} {list : List (String × α)}
    (h : list.lookup name = some value) : (name, value) ∈ list := by
  obtain ⟨before, after, rfl, -⟩ := List.lookup_eq_some_iff.1 h
  exact List.mem_append_right _ List.mem_cons_self

variable {members : List (String × Json)}

theorem find?_named (name : String) :
    Fields.find? (named members) name = members.lookup name := by
  induction members with
  | nil => rfl
  | cons member members ih =>
    obtain ⟨key, value⟩ := member
    have hkey : ((ofText key).keyName.toOption == some name) = (name == key) := by
      rw [Bool.beq_comm]
      rfl
    rw [Fields.find?, named_cons, List.find?_cons, hkey, List.lookup_cons, ← ih]
    cases name == key <;> rfl

variable {checks : List (String × (Json → Except Problem Unit))} {seen : List String}

theorem checkMembers_other {key : String} {value : Json} (hcheck : checks.lookup key = none)
    (hstop : value.stop? = none) (rest : List (Json × Json)) :
    Fields.checkMembers checks seen ((ofText key, value) :: rest) =
      Fields.checkMembers checks seen rest := by
  simp [Fields.checkMembers, ofText, keyName, hcheck, hstop, Decoder.close, bind, Except.bind]

theorem checkMembers_known {key : String} {value : Json} {check : Json → Except Problem Unit}
    (hcheck : checks.lookup key = some check) (hseen : key ∉ seen) (hvalue : check value = .ok ())
    (rest : List (Json × Json)) :
    Fields.checkMembers checks seen ((ofText key, value) :: rest) =
      Fields.checkMembers checks (key :: seen) rest := by
  simp [Fields.checkMembers, ofText, keyName, hcheck, hseen, hvalue, bind, Except.bind]

theorem checkMembers_named
    (hknown : ∀ member ∈ members, ∀ check, checks.lookup member.1 = some check →
      check member.2 = .ok () ∧ member.1 ∉ seen ∧ (members.map Prod.fst).count member.1 ≤ 1)
    (hother : ∀ member ∈ members, checks.lookup member.1 = none → member.2.stop? = none) :
    Fields.checkMembers checks seen (named members) = .ok () := by
  induction members generalizing seen with
  | nil => rfl
  | cons member members ih =>
    obtain ⟨key, value⟩ := member
    rw [named_cons]
    cases hcheck : checks.lookup key with
    | none =>
      rw [checkMembers_other hcheck (hother _ List.mem_cons_self hcheck)]
      refine ih (fun member hmem check hsome => ?_)
        (fun member hmem => hother member (List.mem_cons_of_mem _ hmem))
      obtain ⟨hvalue, hseen, honce⟩ := hknown member (List.mem_cons_of_mem _ hmem) check hsome
      exact ⟨hvalue, hseen, Nat.le_trans List.count_le_count_cons honce⟩
    | some check =>
      obtain ⟨hvalue, hseen, honce⟩ := hknown _ List.mem_cons_self check hcheck
      rw [checkMembers_known hcheck hseen hvalue]
      -- The name that was just seen does not come again.
      have hnew : key ∉ members.map Prod.fst := by
        simp only [List.map_cons, List.count_cons_self] at honce
        exact List.count_eq_zero.1 (by omega)
      refine ih (fun member hmem check hsome => ?_)
        (fun member hmem => hother member (List.mem_cons_of_mem _ hmem))
      obtain ⟨hvalue, hseen, honce⟩ := hknown member (List.mem_cons_of_mem _ hmem) check hsome
      refine ⟨hvalue, ?_, Nat.le_trans List.count_le_count_cons honce⟩
      rw [List.mem_cons, not_or]
      refine ⟨?_, hseen⟩
      rintro rfl
      exact hnew (List.mem_map_of_mem hmem)

end Told

theorem IsScalar.stop? {json : Json} (h : IsScalar json) : json.stop? = none := by
  cases h <;> rfl

/-- A record is decoded from an object whose members tell it. -/
theorem record_told {β : Type} {αs : List Type} {fields : Fields αs} {make : Arrow αs β}
    {entries : List Entry} {b : β} {members : List (String × Json)} (h : Told fields make entries b)
    (hshows : Shows members entries) : Decoder.record fields make (ofMembers members) = .ok b := by
  have hchecked : Fields.checkMembers fields.checks [] (named members) = .ok () := by
    refine Told.checkMembers_named (fun member hmem check hcheck => ?_)
      (fun member hmem hcheck => (hshows.others member hmem ?_).stop?)
    · obtain ⟨entry, hentry, hname, hpass⟩ := h.check hcheck
      exact ⟨hpass _ (hshows.told entry hentry member hmem hname.symm), List.not_mem_nil,
        hname ▸ hshows.once entry hentry⟩
    · rw [← h.names]
      exact Told.not_mem_of_lookup hcheck
  have hslots : Fields.slots fields.checks (ofMembers members) =
      .ok (entries.map (fun entry => members.lookup entry.name)) := by
    have hfound : fields.checks.map (fun check => Fields.find? (named members) check.1) =
        entries.map (fun entry => members.lookup entry.name) := by
      have hnames := congrArg (List.map (fun name => members.lookup name)) h.names
      simpa only [List.map_map, Function.comp_def, Told.find?_named] using hnames
    simp only [Fields.slots, ofMembers, hchecked, hfound, Decoder.close, bind, Except.bind]
    rfl
  rw [Decoder.record, hslots]
  refine h.fill (fun name => members.lookup name)
    (fun entry hentry json hjson => ?_) (fun entry hentry hnone => ?_)
  · exact hshows.told entry hentry _ (Told.mem_of_lookup hjson) rfl
  · exact hshows.spared entry hentry (Told.not_mem_of_lookup hnone)

/-! ## Entries of a record -/

namespace Entry

variable {name : String}

theorem text_toldBy {s : String} (json : Json) (h : (text name s).toldBy json) :
    Decoder.text json = .ok s := by
  cases h
  rfl

theorem uint8_ofNatural (k : UInt8) : Decoder.uint8 (ofNatural k.toUInt64) = .ok k := by
  simp [Decoder.uint8, Decoder.natural, ofNatural, k.toNat_lt, Except.map]

theorem uint8_toldBy {k : UInt8} (json : Json) (h : (natural name k.toUInt64).toldBy json) :
    Decoder.uint8 json = .ok k := by
  cases h
  exact uint8_ofNatural k

theorem uint32_toldBy {k : UInt32} (json : Json) (h : (natural name k.toUInt64).toldBy json) :
    Decoder.uint32 json = .ok k := by
  cases h
  simp [Decoder.uint32, Decoder.natural, ofNatural, k.toNat_lt, Except.map]

theorem uint64_toldBy {k : UInt64} (json : Json) (h : (natural name k).toldBy json) :
    Decoder.uint64 json = .ok k := by
  cases h
  simp [Decoder.uint64, Decoder.natural, ofNatural, k.toNat_lt, Except.map]

theorem double_toldBy {x : Float} (json : Json) (h : (double name x).toldBy json) :
    Decoder.double json = .ok x := by
  obtain ⟨value, rfl, rfl⟩ := h
  rfl

end Entry

namespace Told

variable {β α : Type} {αs : List Type} {fields : Fields αs} {make : α → Arrow αs β}
  {entry : Entry} {entries : List Entry} {value : Decoder α} {a : α} {b : β}

theorem required (htold : ∀ json, entry.toldBy json → value json = .ok a) (hspare : ¬entry.spare)
    (hrest : Told fields (make a) entries b) :
    Told (.cons (.required entry.name value) fields) make (entry :: entries) b :=
  .cons rfl htold (fun h => absurd h hspare) hrest

theorem optional (htold : ∀ json, entry.toldBy json → value json = .ok a)
    (hrest : Told fields (make a) entries b) {default : α} :
    Told (.cons (.optional entry.name value default) fields) make
      (entry.spared (a = default) :: entries) b :=
  .cons rfl htold (fun h => congrArg some (Eq.symm h)) hrest

end Told

end TopologySync.Json
