-- The law of event lines. Whatever the layout of its object, an event is read from it, with
-- the tag in any place, defaults left out, and members of other names among the fields.
import TopologySync.Proofs.Json.Overflows
import TopologySync.Proofs.Json.Reading
import TopologySync.Proofs.Json.Records
import TopologySync.Replay

namespace TopologySync

open Json (Entry Told Shows)

/-! ## What tells an event -/

/-- A set is told by the list of its members, in any order and with repeats. -/
def Json.Entry.algorithms (name : String) (algorithms : Std.ExtTreeSet UInt8) : Entry where
  name := name
  toldBy json := ∃ items : List UInt8,
    json = .list (items.map (fun item => Json.ofNatural item.toUInt64)) none ∧
      ∀ item, item ∈ items ↔ item ∈ algorithms

def Node.entries (node : Node) : List Entry :=
  [.text "key" node.key, .text "igp_router_id" node.router,
    (Entry.text "name" node.name).spared (node.name = ""),
    (Entry.algorithms "sr_algorithms" node.algorithms).spared (node.algorithms = ∅)]

def Link.entries (link : Link) : List Entry :=
  [.text "key" link.key, .text "igp_router_id" link.source,
    .text "remote_igp_router_id" link.target, .natural "igp_metric" link.igpMetric.toUInt64,
    .natural "unidir_link_delay" link.delay.toUInt64,
    .natural "unidir_delay_variation" link.jitter.toUInt64,
    .natural "max_link_bandwidth" link.maxBandwidth,
    .natural "unidir_available_bandwidth" link.availableBandwidth,
    .natural "unidir_bandwidth_utilization" link.utilizedBandwidth,
    .double "unidir_packet_loss" link.packetLoss,
    (Entry.double "normalized_delay" link.normalizedDelay).spared (link.normalizedDelay = 0.0),
    (Entry.double "normalized_jitter" link.normalizedJitter).spared (link.normalizedJitter = 0.0),
    (Entry.double "normalized_packet_loss" link.normalizedPacketLoss).spared
      (link.normalizedPacketLoss = 0.0)]

def Prefix.entries (announcement : Prefix) : List Entry :=
  [.text "key" announcement.key, .text "igp_router_id" announcement.router,
    .text "network_address" announcement.address,
    .natural "prefix_length" announcement.length.toUInt64]

def Sid.entries (sid : Sid) : List Entry :=
  [.text "key" sid.key, .text "igp_router_id" sid.router, .text "sid" sid.address,
    (Entry.natural "algorithm" sid.algorithm.toUInt64).spared (sid.algorithm = 0)]

/-- The fields of the record that an event carries. -/
def Event.payload : Event → List Entry
  | addNode node | updateNode node => node.entries
  | addLink link | updateLink link => link.entries
  | addPrefix announcement => announcement.entries
  | addSid sid => sid.entries
  | deleteNode key | deleteLink key | deletePrefix key | deleteSid key => [.text "key" key]

/-- The tag of an event and the fields of its record. -/
def Event.entries (event : Event) : List Entry :=
  .text tagName event.kind.name :: event.payload

/-! ## Records -/

theorem Json.Entry.algorithms_toldBy {name : String} {algorithms : Std.ExtTreeSet UInt8}
    (json : Json) (h : (Entry.algorithms name algorithms).toldBy json) :
    Json.Decoder.algorithms json = .ok algorithms := by
  obtain ⟨items, rfl, hitems⟩ := h
  have hread : (items.map (fun item => Json.ofNatural item.toUInt64)).mapM Decoder.uint8 =
      .ok items := by
    clear hitems
    induction items with
    | nil => rfl
    | cons item items ih =>
      rw [List.map_cons, List.mapM_cons, uint8_ofNatural, ih]
      rfl
  have hset : Std.ExtTreeSet.ofList items = algorithms :=
    Std.ExtTreeSet.ext_mem (fun item => by rw [← hitems]; simp)
  simp only [Decoder.algorithms, Decoder.listOf, hread, Decoder.close, bind, Except.bind]
  exact congrArg Except.ok hset

variable {members : List (String × Json)}

theorem Node.decoder_shows {node : Node} (h : Shows members node.entries) :
    Node.decoder (Json.ofMembers members) = .ok node :=
  Json.record_told (.required Entry.text_toldBy id <| .required Entry.text_toldBy id <|
    .optional Entry.text_toldBy <| .optional Entry.algorithms_toldBy .nil) h

theorem Link.decoder_shows {link : Link} (h : Shows members link.entries) :
    Link.decoder (Json.ofMembers members) = .ok link :=
  Json.record_told (.required Entry.text_toldBy id <| .required Entry.text_toldBy id <|
    .required Entry.text_toldBy id <| .required Entry.uint32_toldBy id <|
    .required Entry.uint32_toldBy id <| .required Entry.uint32_toldBy id <|
    .required Entry.uint64_toldBy id <| .required Entry.uint64_toldBy id <|
    .required Entry.uint64_toldBy id <| .required Entry.double_toldBy id <|
    .optional Entry.double_toldBy <| .optional Entry.double_toldBy <|
    .optional Entry.double_toldBy .nil) h

theorem Prefix.decoder_shows {announcement : Prefix} (h : Shows members announcement.entries) :
    Prefix.decoder (Json.ofMembers members) = .ok announcement :=
  Json.record_told (.required Entry.text_toldBy id <| .required Entry.text_toldBy id <|
    .required Entry.text_toldBy id <| .required Entry.uint8_toldBy id .nil) h

theorem Sid.decoder_shows {sid : Sid} (h : Shows members sid.entries) :
    Sid.decoder (Json.ofMembers members) = .ok sid :=
  Json.record_told (.required Entry.text_toldBy id <| .required Entry.text_toldBy id <|
    .required Entry.text_toldBy id <| .optional Entry.uint8_toldBy .nil) h

theorem Event.keyDecoder_shows {key : String} (h : Shows members [.text "key" key]) :
    Event.keyDecoder (Json.ofMembers members) = .ok key :=
  Json.record_told (.required Entry.text_toldBy id .nil) h

/-- The record of an event is decoded from its fields. -/
theorem Event.ofPayload_shows {event : Event} (h : Shows members event.payload) :
    ofPayload event.kind (Json.ofMembers members) = .ok event := by
  cases event with
  | addNode | updateNode => simp [ofPayload, kind, Node.decoder_shows h, Except.map]
  | addLink | updateLink => simp [ofPayload, kind, Link.decoder_shows h, Except.map]
  | addPrefix => simp [ofPayload, kind, Prefix.decoder_shows h, Except.map]
  | addSid => simp [ofPayload, kind, Sid.decoder_shows h, Except.map]
  | deleteNode | deleteLink | deletePrefix | deleteSid =>
    simp [ofPayload, kind, Event.keyDecoder_shows h, Except.map]

/-! ## Tagged objects -/

/-- A value that is kept until the tag is known. -/
def Json.Kept (json : Json) : Prop :=
  Json.sound (Json.depthLimit - 1) json = .ok ()

theorem Json.Overflows.not_sound {json : Json} (h : json.Overflows) (depth : Nat) :
    Json.sound depth json = .error .malformed := by
  rw [h.eq]
  cases depth <;> rfl

theorem Json.Kept.not_overflows {json : Json} (h : json.Kept) : ¬json.Overflows := by
  intro hoverflow
  cases h.symm.trans (hoverflow.not_sound _)

theorem Json.IsScalar.kept {json : Json} (h : Json.IsScalar json) : json.Kept ∨ json.Overflows := by
  cases h with
  | word | text | natural => exact Or.inl rfl
  | numeral n =>
    cases hvalue : n.value with
    | ok value => exact Or.inl (by rw [Json.ofNumeral, hvalue]; rfl)
    | error problem => exact Or.inr ⟨n, (Json.Numeral.value_eq_error_iff.1 hvalue).2, rfl⟩

namespace Json.Entry

/-- Whatever tells the entry is kept. -/
def Kept (entry : Entry) : Prop :=
  ∀ json, entry.toldBy json → json.Kept

variable {name : String}

theorem text_kept (s : String) : (text name s).Kept := by
  rintro json rfl
  rfl

theorem natural_kept (k : UInt64) : (natural name k).Kept := by
  rintro json rfl
  rfl

theorem double_kept (x : Float) : (double name x).Kept := by
  rintro json ⟨value, rfl, -⟩
  rfl

theorem algorithms_kept (algorithms : Std.ExtTreeSet UInt8) :
    (Entry.algorithms name algorithms).Kept := by
  rintro json ⟨items, rfl, -⟩
  have hnone : (items.map (fun item => ofNatural item.toUInt64)).findSome? (flaw? 125) = none := by
    rw [List.findSome?_eq_none_iff]
    intro json hjson
    obtain ⟨item, -, rfl⟩ := List.mem_map.1 hjson
    rfl
  simp [Json.Kept, sound, depthLimit, flaw?, hnone]

theorem spared_kept {entry : Entry} (h : entry.Kept) (spare : Prop) : (entry.spared spare).Kept :=
  h

end Json.Entry

/-- What tells an event is sound by itself. -/
theorem Event.entries_kept (event : Event) : ∀ entry ∈ event.entries, entry.Kept := by
  cases event <;>
    simp [entries, payload, Node.entries, Link.entries, Prefix.entries, Sid.entries,
      Entry.text_kept, Entry.natural_kept, Entry.double_kept, Entry.algorithms_kept,
      Entry.spared_kept]

theorem Event.Kind.ofName?_name (kind : Kind) : ofName? kind.name = some kind := by
  cases kind <;> decide

namespace Event

variable {found : Option Kind} {key : String} {value : Json}

theorem splitMembers_tag (kind : Kind) (rest : List (Json × Json)) :
    splitMembers none ((Json.ofText tagName, Json.ofText kind.name) :: rest) =
      splitMembers (some kind) rest := by
  simp [splitMembers, Json.ofText, Json.keyName, tag, Json.Decoder.spelling, Json.Decoder.text,
    Kind.ofName?_name, bind, Except.bind]

theorem splitMembers_kept (hkey : key ≠ tagName) (hvalue : value.Kept)
    (rest : List (Json × Json)) :
    splitMembers found ((Json.ofText key, value) :: rest) = (splitMembers found rest).map
      (fun split => (split.1, (Json.ofText key, value) :: split.2)) := by
  rw [Json.Kept] at hvalue
  cases hrest : splitMembers found rest with
  | error e =>
    simp [splitMembers, Json.ofText, Json.keyName, hkey, hvalue, hrest, bind, Except.bind,
      Except.map]
  | ok split =>
    simp [splitMembers, Json.ofText, Json.keyName, hkey, hvalue, hrest, bind, Except.bind,
      Except.map]
    rfl

theorem splitMembers_overflow (hkey : key ≠ tagName) (hvalue : value.Overflows)
    (rest : List (Json × Json)) :
    splitMembers found ((Json.ofText key, value) :: rest) = .error .malformed := by
  simp [splitMembers, Json.ofText, Json.keyName, hkey, hvalue.not_sound, bind, Except.bind]

/-- Members before the tag, or behind it, are kept as they are. -/
theorem splitMembers_append (hkey : ∀ member ∈ members, member.1 ≠ tagName)
    (hkept : ∀ member ∈ members, member.2.Kept) (rest : List (Json × Json)) :
    splitMembers found (Json.named members ++ rest) =
      (splitMembers found rest).map (fun split => (split.1, Json.named members ++ split.2)) := by
  induction members with
  | nil =>
    show splitMembers found rest = _
    cases splitMembers found rest <;> rfl
  | cons member members ih =>
    obtain ⟨hfirst, hkey⟩ := List.forall_mem_cons.1 hkey
    obtain ⟨hvalue, hkept⟩ := List.forall_mem_cons.1 hkept
    rw [Json.named_cons, List.cons_append, splitMembers_kept hfirst hvalue,
      ih hkey hkept]
    cases splitMembers found rest <;> rfl

/-- The first number that overflows ends the reading. -/
theorem splitMembers_append_overflow (hkey : ∀ member ∈ members, member.1 ≠ tagName)
    (hkept : ∀ member ∈ members, member.2.Kept ∨ member.2.Overflows)
    (hoverflow : ∃ member ∈ members, member.2.Overflows) (rest : List (Json × Json)) :
    splitMembers found (Json.named members ++ rest) = .error .malformed := by
  induction members with
  | nil =>
    obtain ⟨member, hmem, -⟩ := hoverflow
    cases hmem
  | cons member members ih =>
    obtain ⟨hfirst, hkey⟩ := List.forall_mem_cons.1 hkey
    obtain ⟨hvalue, hkept⟩ := List.forall_mem_cons.1 hkept
    rw [Json.named_cons, List.cons_append]
    rcases hvalue with hvalue | hvalue
    · have hoverflow : ∃ member ∈ members, member.2.Overflows := by
        obtain ⟨bad, hmem, hbad⟩ := hoverflow
        rcases List.mem_cons.1 hmem with rfl | hmem
        · exact absurd hbad hvalue.not_overflows
        · exact ⟨bad, hmem, hbad⟩
      rw [splitMembers_kept hfirst hvalue, ih hkey hkept hoverflow]
      rfl
    · exact splitMembers_overflow hfirst hvalue _

theorem splitMembers_tagged {kind : Kind} {before after : List (String × Json)}
    (hkey : ∀ member ∈ before ++ after, member.1 ≠ tagName)
    (hkept : ∀ member ∈ before ++ after, member.2.Kept) :
    splitMembers none (Json.named (before ++ (tagName, Json.ofText kind.name) :: after)) =
      .ok (some kind, Json.named (before ++ after)) := by
  rw [List.forall_mem_append] at hkey hkept
  have hafter :
      splitMembers (some kind) (Json.named after) = .ok (some kind, Json.named after) := by
    rw [← List.append_nil (Json.named after), splitMembers_append hkey.2 hkept.2]
    simp [splitMembers, Except.map]
  rw [Json.named_append, Json.named_cons, splitMembers_append hkey.1 hkept.1, splitMembers_tag,
    hafter, Json.named_append]
  rfl

theorem splitMembers_tagged_overflow {kind : Kind} {before after : List (String × Json)}
    (hkey : ∀ member ∈ before ++ after, member.1 ≠ tagName)
    (hkept : ∀ member ∈ before ++ after, member.2.Kept ∨ member.2.Overflows)
    (hoverflow : ∃ member ∈ before ++ after, member.2.Overflows) :
    splitMembers none (Json.named (before ++ (tagName, Json.ofText kind.name) :: after)) =
      .error .malformed := by
  rw [List.forall_mem_append] at hkey hkept
  rw [Json.named_append, Json.named_cons]
  by_cases hbefore : ∃ member ∈ before, member.2.Overflows
  · exact splitMembers_append_overflow hkey.1 hkept.1 hbefore _
  have hsound : ∀ member ∈ before, member.2.Kept := fun member hmem =>
    (hkept.1 member hmem).resolve_right (fun hbad => hbefore ⟨member, hmem, hbad⟩)
  have hafter : ∃ member ∈ after, member.2.Overflows := by
    obtain ⟨member, hmem, hbad⟩ := hoverflow
    rcases List.mem_append.1 hmem with hmem | hmem
    · exact absurd ⟨member, hmem, hbad⟩ hbefore
    · exact ⟨member, hmem, hbad⟩
  rw [splitMembers_append hkey.1 hsound, splitMembers_tag, ← List.append_nil (Json.named after),
    splitMembers_append_overflow hkey.2 hkept.2 hafter]
  rfl

theorem tagName_not_mem_payload (event : Event) : tagName ∉ event.payload.map Entry.name := by
  cases event <;> simp [payload, Node.entries, Link.entries, Prefix.entries, Sid.entries, tagName,
    Entry.text, Entry.natural, Entry.double, Entry.algorithms, Entry.spared]

/-- What a member of an event holds is kept, unless it is a number that overflows. -/
theorem kept_or_overflows {event : Event} (h : Shows members event.entries) :
    ∀ member ∈ members, member.2.Kept ∨ member.2.Overflows := by
  intro member hmem
  by_cases hname : member.1 ∈ event.entries.map Entry.name
  · obtain ⟨entry, hentry, hsame⟩ := List.mem_map.1 hname
    exact Or.inl (event.entries_kept entry hentry _ (h.told entry hentry member hmem hsame.symm))
  · exact (h.others member hmem hname).kept

theorem decoder_object (members : List (String × Json)) :
    decoder (Json.ofMembers members) = (splitMembers none (Json.named members) >>=
      fun split => ofSoundPayload split.1 (.object split.2 none)) :=
  rfl

/-- An event is decoded from an object whose members tell it, unless a member of another name
is a number that overflows. -/
theorem decoder_shows {event : Event} (h : Shows members event.entries) :
    ((∀ member ∈ members, ¬member.2.Overflows) →
      decoder (Json.ofMembers members) = .ok event) ∧
    ((∃ member ∈ members, member.2.Overflows) →
      decoder (Json.ofMembers members) = .error .malformed) := by
  have hkept := kept_or_overflows h
  obtain ⟨before, value, after, hmembers, rfl, hkey, hpayload⟩ :=
    h.uncons id event.tagName_not_mem_payload
  have hmembers : members = before ++ (tagName, Json.ofText event.kind.name) :: after := hmembers
  subst hmembers
  have hother : ∀ member ∈ before ++ after,
      member ∈ before ++ (tagName, Json.ofText event.kind.name) :: after := by grind
  rw [decoder_object]
  constructor
  · intro hsound
    rw [splitMembers_tagged hkey (fun member hmem =>
      (hkept member (hother member hmem)).resolve_right (hsound member (hother member hmem)))]
    show (ofPayload event.kind (Json.ofMembers (before ++ after))).mapError _ = _
    rw [ofPayload_shows hpayload]
    rfl
  · rintro ⟨member, hmem, hbad⟩
    have hmem : member ∈ before ++ after := by
      simp only [List.mem_append, List.mem_cons] at hmem ⊢
      rcases hmem with hmem | rfl | hmem
      · exact Or.inl hmem
      · cases hbad.eq
      · exact Or.inr hmem
    rw [splitMembers_tagged_overflow hkey (fun member hmem => hkept member (hother member hmem))
      ⟨member, hmem, hbad⟩]
    rfl

end Event

/-! ## Lines -/

/-- What stands between blanks. -/
theorem Text.trim_between {before after inner : List Char} {first last : Char}
    (hbefore : ∀ c ∈ before, Text.isBlank c = true) (hafter : ∀ c ∈ after, Text.isBlank c = true)
    (hfirst : Text.isBlank first = false) (hlast : Text.isBlank last = false) :
    Text.trim (before ++ (first :: (inner ++ [last]) ++ after)) = first :: (inner ++ [last]) := by
  have hhead : (before ++ (first :: (inner ++ [last]) ++ after)).dropWhile Text.isBlank =
      first :: (inner ++ [last]) ++ after := by
    rw [List.dropWhile_append_of_pos hbefore]
    exact List.dropWhile_cons_of_neg (by simp [hfirst])
  have htail : (first :: (inner ++ [last]) ++ after).reverse.dropWhile Text.isBlank =
      (first :: (inner ++ [last])).reverse := by
    rw [List.reverse_append, List.dropWhile_append_of_pos (by simpa using hafter)]
    simp [hlast]
  rw [Text.trim, hhead, htail, List.reverse_reverse]

/-- The braces of an object have nothing but blanks around them. -/
theorem Json.Layout.braces {members : List (String × Json)} {cs : List Char}
    (h : Layout (.value (ofMembers members)) cs) :
    ∃ before inner after, cs = before ++ ('{' :: (inner ++ ['}']) ++ after) ∧ Blanks before ∧
      Blanks after ∧ Layout (.value (ofMembers members)) ('{' :: (inner ++ ['}'])) := by
  generalize hpart : Part.value (ofMembers members) = part at h ⊢
  induction h with
  | @emptyObject inner hinner => exact ⟨[], inner, [], by simp, nofun, nofun, .emptyObject hinner⟩
  | @object _ inner hinner => exact ⟨[], inner, [], by simp, nofun, nofun, .object hinner⟩
  | @blanks json outer cs outer' hbefore _ hafter ih =>
    obtain ⟨before, inner, after, rfl, hbefore', hafter', hinner⟩ := ih hpart
    refine ⟨outer ++ before, inner, after ++ outer', by simp, ?_, ?_, hinner⟩
    · exact List.forall_mem_append.2 ⟨hbefore, hbefore'⟩
    · exact List.forall_mem_append.2 ⟨hafter', hafter⟩
  | _ => cases hpart

theorem Json.Blanks.isBlank {cs : List Char} (h : Blanks cs) :
    ∀ c ∈ cs, Text.isBlank c = true := by
  intro c hc
  have hblank := h c hc
  simp only [List.mem_cons, List.not_mem_nil, or_false] at hblank
  rcases hblank with rfl | rfl | rfl | rfl <;> decide

/-- A line that lays out an object is decoded as this object. -/
theorem Event.ofLine_layout {line : List Char}
    (h : Json.Layout (.value (Json.ofMembers members)) line) :
    ofLine line = (decoder (Json.ofMembers members)).map some := by
  obtain ⟨before, inner, after, rfl, hbefore, hafter, hinner⟩ := h.braces
  have htrim : Text.trim (before ++ ('{' :: (inner ++ ['}']) ++ after)) = '{' :: (inner ++ ['}']) :=
    Text.trim_between hbefore.isBlank hafter.isBlank (by decide) (by decide)
  have hdecode := Json.decode_layout hinner decoder
  rw [ofLine, htrim]
  show (Json.decode decoder (Json.bytesOf (String.ofList ('{' :: (inner ++ ['}']))))).map some = _
  rw [Json.bytesOf_eq, String.toList_ofList, hdecode]

/-- A deletion with a number under another name. -/
theorem deletion_with_number {n : Json.Numeral} {cs : List Char} (h : Json.NumeralLayout n cs) :
    let members := [("type", Json.ofText "delete_node"), ("key", Json.ofText "k"),
      ("x", Json.ofNumeral n)]
    Json.Layout (.value (Json.ofMembers members))
        ("\x7b\"type\":\"delete_node\",\"key\":\"k\",\"x\":".toList ++ (cs ++ ['}'])) ∧
      Shows members (Event.deleteNode "k").entries := by
  refine ⟨?_, ?_, ?_, ?_, ?_⟩
  · exact .object (.members (.plain "type" (by decide)) (.plain "delete_node" (by decide)) <|
      .members (.plain "key" (by decide)) (.plain "k" (by decide)) <|
      .member (.plain "x" (by decide)) (.numeral h))
  · change ∀ entry ∈ (Event.deleteNode "k").entries, ["type", "key", "x"].count entry.name ≤ 1
    decide
  · simp [Event.entries, Event.payload, Entry.text, Event.tagName, Event.kind, Event.Kind.name]
  · simp [Event.entries, Event.payload, Entry.text, Event.tagName]
  · simp [Event.entries, Event.payload, Entry.text, Event.tagName, Json.IsScalar.numeral]

end TopologySync
