-- The index of client networks, against all that ever happened to the cache.
-- A store leaves the entries of its key alone, also if it is for another
-- network. An entry names an announcement of its network unless its key has
-- strayed like that, and the entries of a key that strayed outlive its removal.
import Mathlib.Data.List.Induction
import TopologySync.Proofs.Cache.Indices
import TopologySync.Proofs.Lasting

open Std

namespace TopologySync.Cache

/-! ## The network of a key -/

/-- The network that an operation stores a key for. -/
def Op.networkOf? (key : String) : Op → Option String
  | .storePrefix p | .storeClientNetwork p => if p.key = key then some p.network else none
  | _ => none

/-- The network that a key is stored for. -/
def networkOf? (cache : Cache) (key : String) : Option String :=
  cache.prefixes[key]?.map Prefix.network

variable {cache : Cache} {network key : String}

theorem networkOf?_removePrefix (cache : Cache) (key : String) :
    (cache.removePrefix key).2.networkOf? key = none := by
  unfold removePrefix networkOf?
  rcases hknown : cache.prefixes[key]? with _ | p
  · simp [hknown]
  · simp

/-- The last store of a key tells its network, as long as the key is not removed. -/
theorem networkOf?_apply {op : Op} (h : op ≠ .removePrefix key) :
    (cache.apply op).networkOf? key = (op.networkOf? key).or (cache.networkOf? key) := by
  have hstore : ∀ p : Prefix, (cache.prefixes.insert p.key p)[key]?.map Prefix.network =
      (if p.key = key then some p.network else none).or (cache.networkOf? key) := by
    intro p
    by_cases hkey : p.key = key
    · simp [hkey]
    · simp [ExtTreeMap.getElem?_insert, hkey, networkOf?]
  cases op with
  | storePrefix p => exact hstore p
  | storeClientNetwork p => exact hstore p
  | removePrefix removed =>
    have hkey : removed ≠ key := fun heq => h (congrArg Op.removePrefix heq)
    simp only [apply, removePrefix, networkOf?]
    split
    · rfl
    · simp [ExtTreeMap.getElem?_erase, hkey, Op.networkOf?]
  | removeNode removed =>
    simp only [apply, removeNode, networkOf?]
    split <;> rfl
  | removeSid removed =>
    simp only [apply, removeSid, networkOf?]
    split <;> rfl
  | _ => rfl

/-! ## Entries -/

/-- A removal takes an entry of its key away if the key is stored for the network
of the entry, and no other entry. -/
theorem clientNetworks_removePrefix (cache : Cache) (removed network : String) :
    (cache.removePrefix removed).2.clientNetworks[network]? =
      if cache.networkOf? removed = some network ∧ cache.clientNetworks[network]? = some removed
      then none else cache.clientNetworks[network]? := by
  unfold removePrefix networkOf?
  rcases cache.prefixes[removed]? with _ | p
  · simp
  · simp [Slots.getElem?_release]

/-- An entry was made just now, or it was there and its key has not been removed
while it was stored for the network. -/
theorem clientNetworks_apply {op : Op}
    (h : (cache.apply op).clientNetworks[network]? = some key) :
    op.networkOf? key = some network ∨
      cache.clientNetworks[network]? = some key ∧
        (op = .removePrefix key → cache.networkOf? key ≠ some network) := by
  cases op with
  | storeClientNetwork p =>
    simp only [apply, storeClientNetwork, ExtTreeMap.getElem?_insert] at h
    split at h
    · rename_i hnetwork
      rw [Option.some.injEq] at h
      rw [Std.compare_eq_iff_eq] at hnetwork
      exact Or.inl (by simp [Op.networkOf?, h, hnetwork])
    · exact Or.inr ⟨h, by simp⟩
  | removePrefix removed =>
    simp only [apply, clientNetworks_removePrefix] at h
    split at h
    · cases h
    · rename_i hspared
      refine Or.inr ⟨h, fun hop hnetwork => hspared ?_⟩
      cases hop
      exact ⟨hnetwork, h⟩
  | removeClientNetwork removed =>
    simp only [apply, removeClientNetwork, ExtTreeMap.getElem?_erase] at h
    split at h
    · cases h
    · exact Or.inr ⟨h, by simp⟩
  | removeNode removed =>
    simp only [apply, removeNode] at h
    split at h <;> exact Or.inr ⟨h, by simp⟩
  | removeSid removed =>
    simp only [apply, removeSid] at h
    split at h <;> exact Or.inr ⟨h, by simp⟩
  | _ => exact Or.inr ⟨h, by simp⟩

/-! ## Keys that stray -/

/-- A key was stored for another network while it held the status of this one, and
it has not been stored for this one since. -/
def Strayed (ops : List Op) (network key : String) : Prop :=
  Lasts (fun earlier op => (empty.after earlier).clientNetworks[network]? = some key ∧
      ∃ other, other ≠ network ∧ op.networkOf? key = some other)
    (fun op => op.networkOf? key = some network) ops

/-- The key of an entry is stored for the network of the entry, unless it strayed. -/
theorem networkOf?_iff_not_strayed (ops : List Op)
    (h : (empty.after ops).clientNetworks[network]? = some key) :
    (empty.after ops).networkOf? key = some network ↔ ¬ Strayed ops network key := by
  induction ops using List.reverseRecOn with
  | nil => simp [after, empty] at h
  | append_singleton ops op ih =>
    rw [after_snoc] at h ⊢
    rw [Strayed, lasts_snoc, ← Strayed]
    rcases clientNetworks_apply h with hmade | ⟨hheld, hremoved⟩
    · have hop : op ≠ .removePrefix key := by
        rintro rfl
        cases hmade
      simp [networkOf?_apply hop, hmade]
    · by_cases hop : op = .removePrefix key
      -- Had the key been stored for the network, the removal would have taken the entry.
      · have hstrayed : Strayed ops network key := by
          rw [← not_not (a := Strayed ops network key), ← ih hheld]
          exact hremoved hop
        simp [hop, apply, networkOf?_removePrefix, Op.networkOf?, hstrayed]
      · rw [networkOf?_apply hop]
        rcases hstored : op.networkOf? key with _ | other
        · simp [ih hheld]
        · by_cases hsame : other = network
          · simp [hsame]
          · simp [hsame, hheld]

/-- An entry of the index of client networks names an announcement of its network if
and only if its key has not strayed. As long as it has not, a removal of the key takes
the entry away, and the network is never answered with an announcement of another one. -/
theorem a_client_network_is_announced_unless_its_key_strayed (ops : List Op)
    {network key : String} (h : (empty.after ops).clientNetworks[network]? = some key) :
    let cache := empty.after ops
    ((∃ p, cache.prefixes[key]? = some p ∧ p.network = network) ↔ ¬ Strayed ops network key) ∧
      ((cache.removePrefix key).2.clientNetworks[network]? = none ↔ ¬ Strayed ops network key) ∧
      ∀ p, cache.clientNetwork? network = some p →
        (p.network = network ↔ ¬ Strayed ops network key) := by
  intro cache
  have hlaw := networkOf?_iff_not_strayed ops h
  refine ⟨?_, ?_, fun p hp => ?_⟩
  · rw [← hlaw, networkOf?, Option.map_eq_some_iff]
  · rw [clientNetworks_removePrefix, ← hlaw]
    simp [cache, h]
  · have hknown : cache.prefixes[key]? = some p := by
      simpa [clientNetwork?, cache, h] using hp
    rw [← hlaw, networkOf?, show (empty.after ops).prefixes[key]? = some p from hknown]
    simp

/-- A key that is stored for its network again has not strayed, and its removal takes
the entry away. -/
theorem a_key_that_came_back_has_not_strayed :
    let home : Prefix := { key := "p1", router := "r1", address := "a::", length := 64 }
    let ops : List Op :=
      [.storeClientNetwork home, .storePrefix { home with address := "b::" }, .storePrefix home]
    let cache := empty.after ops
    cache.clientNetworks[("a::/64" : String)]? = some "p1" ∧ ¬ Strayed ops "a::/64" "p1" ∧
      (cache.removePrefix "p1").2.clientNetworks[("a::/64" : String)]? = none := by
  intro home ops cache
  have hentry : cache.clientNetworks[("a::/64" : String)]? = some "p1" := by decide +kernel
  obtain ⟨hannounced, hremoved, -⟩ :=
    a_client_network_is_announced_unless_its_key_strayed ops hentry
  have hback : ¬ Strayed ops "a::/64" "p1" :=
    hannounced.1 ⟨home, by decide +kernel, by decide +kernel⟩
  exact ⟨hentry, hback, hremoved.2 hback⟩

/-- A key that holds a client network is stored for another network. The first network
is then answered with an announcement of the second one, and its entry stays behind when
the key is removed. -/
theorem a_removal_leaves_a_client_network_behind :
    let home : Prefix := { key := "p1", router := "r1", address := "a::", length := 64 }
    let cache := empty.after [.storeClientNetwork home, .storePrefix { home with address := "b::" }]
    let left := (cache.removePrefix "p1").2
    (cache.clientNetwork? "a::/64").map Prefix.network = some "b::/64" ∧
      left.clientNetworks[("a::/64" : String)]? = some "p1" ∧ "p1" ∉ left.prefixes := by
  decide +kernel

end TopologySync.Cache
