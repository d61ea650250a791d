-- Who announces a network. The text of a network tells its address and its
-- length apart, so that all who announce it agree on whether it counts.
import Std.Data.String.ToNat
import TopologySync.Cache.Basic
import TopologySync.Proofs.Maps

open Std

namespace TopologySync

/-! ## The text of a network -/

namespace Prefix

theorem slash_notMem_repr (n : Nat) : '/' ∉ n.repr.toList := by
  rw [Nat.toList_repr]
  intro h
  have hdigit := Nat.isDigit_of_mem_toDigits (by decide) (by decide) h
  revert hdigit
  decide

theorem takeWhile_slash {xs : List Char} (hxs : '/' ∉ xs) (rest : List Char) :
    (xs ++ '/' :: rest).takeWhile (· != '/') = xs := by
  have hplain : ∀ c ∈ xs, (c != '/') = true := fun c hc =>
    bne_iff_ne.2 fun hslash => hxs (hslash ▸ hc)
  rw [List.takeWhile_append_of_pos hplain, List.takeWhile_cons_of_neg (by decide),
    List.append_nil]

/-- The first slash parts a text in one way. -/
theorem append_slash_inj {xs ys rest rest' : List Char} (hxs : '/' ∉ xs) (hys : '/' ∉ ys)
    (h : xs ++ '/' :: rest = ys ++ '/' :: rest') : xs = ys ∧ rest = rest' := by
  have hfirst : xs = ys := by
    rw [← takeWhile_slash hxs rest, h, takeWhile_slash hys rest']
  rw [hfirst] at h
  exact ⟨hfirst, (List.cons_inj_right '/').1 (List.append_cancel_left h)⟩

/-- The last slash of the text stands between the address and the length. -/
theorem address_length_of_network {p q : Prefix} (h : p.network = q.network) :
    p.address = q.address ∧ p.length = q.length := by
  have hreversed : p.length.toNat.repr.toList.reverse ++ '/' :: p.address.toList.reverse =
      q.length.toNat.repr.toList.reverse ++ '/' :: q.address.toList.reverse := by
    have htexts := congrArg (fun text => text.toList.reverse) h
    simpa [network, toString] using htexts
  have hdigits : ∀ n : Nat, '/' ∉ n.repr.toList.reverse := fun n hmem =>
    slash_notMem_repr n (List.mem_reverse.1 hmem)
  obtain ⟨hlength, haddress⟩ := append_slash_inj (hdigits _) (hdigits _) hreversed
  have hnumber := Nat.repr_injective (String.toList_inj.1 (List.reverse_inj.1 hlength))
  exact ⟨String.toList_inj.1 (List.reverse_inj.1 haddress), UInt8.toNat.inj hnumber⟩

theorem network_inj {p q : Prefix} :
    p.network = q.network ↔ p.address = q.address ∧ p.length = q.length := by
  refine ⟨address_length_of_network, fun h => ?_⟩
  unfold network
  rw [h.1, h.2]

theorem isHostRoute_of_network {p q : Prefix} (h : p.network = q.network) :
    p.isHostRoute = q.isHostRoute := by
  unfold isHostRoute
  rw [(address_length_of_network h).2]

/-! ## Who announces it -/

/-- The record announces a network, and counts. -/
def announces (p : Prefix) (network : String) : Bool :=
  !p.isHostRoute && p.network == network

theorem announces_iff (p : Prefix) (network : String) :
    p.announces network = true ↔ p.isHostRoute = false ∧ p.network = network := by
  simp [announces]

theorem announces_of_network {p q : Prefix} (h : p.network = q.network) (network : String) :
    p.announces network = q.announces network := by
  unfold announces
  rw [isHostRoute_of_network h, h]

/-- Who announces the network of a record has its address and its length. -/
theorem announces_network (p q : Prefix) :
    q.announces p.network =
      (!p.isHostRoute && (q.address == p.address && q.length == p.length)) := by
  rw [Bool.eq_iff_iff, announces_iff]
  simp only [Bool.and_eq_true, Bool.not_eq_true', beq_iff_eq, ← network_inj]
  refine and_congr_left fun h => ?_
  rw [isHostRoute_of_network h]

end Prefix

/-- Announcements by key. -/
abbrev Announced := ExtTreeMap String Prefix

namespace Announced

/-- The announcements of one network that count. -/
def announcers (known : Announced) (network : String) : Announced :=
  known.filter (fun _ p => p.announces network)

theorem getElem?_announcers (known : Announced) (network key : String) :
    (known.announcers network)[key]? = known[key]?.filter (·.announces network) :=
  ExtTreeMap.getElem?_filter'

theorem announcers_empty (network : String) : announcers ∅ network = ∅ :=
  ExtTreeMap.filter_eq_empty_iff.2 fun _ hkey => absurd hkey ExtTreeMap.not_mem_empty

/-- The announcements of a network are those of its address and its length,
or none if these make a host route. -/
theorem announcers_network (known : Announced) (p : Prefix) :
    known.announcers p.network =
      if p.isHostRoute then ∅
      else known.filter (fun _ q => q.address == p.address && q.length == p.length) := by
  unfold announcers
  simp only [Prefix.announces_network]
  split
  · rename_i hhost
    exact ExtTreeMap.filter_eq_empty_iff.2 fun key hkey => by simp [hhost]
  · rename_i hcounts
    simp [hcounts]

theorem announcers_insert (known : Announced) (network : String) (p : Prefix) :
    announcers (known.insert p.key p) network =
      if p.announces network then (known.announcers network).insert p.key p
      else (known.announcers network).erase p.key :=
  Maps.filter_insert _ known p.key p

theorem announcers_erase (known : Announced) (network key : String) :
    announcers (known.erase key) network = (known.announcers network).erase key :=
  Maps.filter_erase _ known key

theorem mem_announcers (known : Announced) (network key : String) :
    key ∈ known.announcers network ↔ ∃ p, known[key]? = some p ∧ p.announces network = true := by
  rw [Maps.mem_iff_exists]
  simp only [getElem?_announcers, Option.filter_eq_some_iff]

/-- A key whose record is known announces what the record does. -/
theorem mem_announcers_of_known {known : Announced} {key : String} {p : Prefix}
    (h : known[key]? = some p) (network : String) :
    key ∈ known.announcers network ↔ p.announces network = true := by
  rw [mem_announcers, h]
  simp

theorem notMem_announcers_of_unknown {known : Announced} {key : String}
    (h : known[key]? = none) (network : String) : key ∉ known.announcers network := by
  rw [mem_announcers, h]
  simp

end Announced

end TopologySync
