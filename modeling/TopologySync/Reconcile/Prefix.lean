-- Announcements, counted by network. A network with a single announcement
-- is a client network; with a second one it stops to be one, until all of
-- its announcements are gone. Host routes are known but never counted.
import TopologySync.Reconcile.Error

namespace TopologySync

/-- The number of announcements of each network. -/
abbrev AnnouncementCounts := Std.ExtTreeMap String Nat

namespace AnnouncementCounts

/-- The number of announcements of one network. -/
def count (counts : AnnouncementCounts) (network : String) : Nat :=
  counts[network]?.getD 0

end AnnouncementCounts

/-- The counts together with the cache that holds the announcements. -/
structure Announcements where
  counts : AnnouncementCounts := ∅
  cache : Cache := .empty
deriving DecidableEq

namespace Announcements

/-- Takes one announcement off the count of a network. -/
def uncount (a : Announcements) (key network : String) :
    Except ReconcileError Unit × Announcements :=
  match a.counts[network]? with
  | none => (.error (.uncountedNetwork key network), a)
  | some count =>
    if 1 < count then (.ok (), { a with counts := a.counts.insert network (count - 1) })
    else (.ok (), {
      counts := a.counts.erase network
      cache := (a.cache.removeClientNetwork network).2 })

/-- Withdraws an announcement. It is forgotten even if its network turns
out not to be counted. -/
def delete (a : Announcements) (key : String) : Except ReconcileError Unit × Announcements :=
  match a.cache.removePrefix key with
  | (none, _) => (.error (.unknownPrefix key), a)
  | (some p, cache) =>
    if p.isHostRoute then (.ok (), { a with cache })
    else uncount { a with cache } key p.network

/-- Stores an announcement of a network that its key announces already. -/
def refresh (a : Announcements) (p : Prefix) : Announcements :=
  let holdsStatus := (a.cache.clientNetwork? p.network).any (fun holder => holder.key == p.key)
  if holdsStatus then { a with cache := a.cache.storeClientNetwork p }
  else { a with cache := a.cache.storePrefix p }

/-- Records an announcement whose key announces nothing yet. -/
def record (a : Announcements) (p : Prefix) : Announcements :=
  if p.isHostRoute then { a with cache := a.cache.storePrefix p }
  else
    let count := a.counts.count p.network + 1
    let counts := a.counts.insert p.network count
    if count = 1 then { counts, cache := a.cache.storeClientNetwork p }
    else { counts, cache := (a.cache.removeClientNetwork p.network).2.storePrefix p }

/-- Adds an announcement. A key that announces another network withdraws
that announcement first. -/
def add (a : Announcements) (p : Prefix) : Except ReconcileError Unit × Announcements :=
  match a.cache.prefixes[p.key]? with
  | none => (.ok (), a.record p)
  | some known =>
    if known.network = p.network then (.ok (), a.refresh p)
    else match a.delete p.key with
      | (.ok (), a) => (.ok (), a.record p)
      | failed => failed

/-- Adds announcements in turn, and tells how many were recorded and which
were refused. -/
def addEach (a : Announcements) : List Prefix → Nat × Announcements × List Refusal
  | [] => (0, a, [])
  | p :: rest => match a.add p with
    | (.ok (), a) =>
      let (added, a, refused) := a.addEach rest
      (added + 1, a, refused)
    | (.error e, a) =>
      let (added, a, refused) := a.addEach rest
      (added, a, .record .announcement p.key e :: refused)

/-- Adds the announcements of a snapshot, host routes left out. -/
def addAll (a : Announcements) (prefixes : List Prefix) : Nat × Announcements × List Refusal :=
  a.addEach (prefixes.filter (fun p => !p.isHostRoute))

end Announcements

end TopologySync
