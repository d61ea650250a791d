-- How the records are written in JSON: the name of each member in its
-- place, and what a member is if it is left out.
import TopologySync.Json.Decoder
import TopologySync.Record

namespace TopologySync

open Json (Decoder Field Fields)
open Json.Decoder (text uint8 uint32 uint64 double listOf record choice)
open Json.Field (required optional)

/-- A set of algorithms is written as a list; repeats collapse. -/
def Json.Decoder.algorithms : Decoder (Std.ExtTreeSet UInt8) :=
  fun json => (listOf uint8 json).map (fun items => Std.ExtTreeSet.ofList items)

/-- A kind of weight by its spelling. -/
def WeightKind.decoder : Decoder WeightKind :=
  choice WeightKind.ofName?

def Node.decoder : Decoder Node :=
  record
    (.cons (required "key" text) <|
     .cons (required "igp_router_id" text) <|
     .cons (optional "name" text "") <|
     .cons (optional "sr_algorithms" Decoder.algorithms ∅) .nil)
    Node.mk

def Link.decoder : Decoder Link :=
  record
    (.cons (required "key" text) <|
     .cons (required "igp_router_id" text) <|
     .cons (required "remote_igp_router_id" text) <|
     .cons (required "igp_metric" uint32) <|
     .cons (required "unidir_link_delay" uint32) <|
     .cons (required "unidir_delay_variation" uint32) <|
     .cons (required "max_link_bandwidth" uint64) <|
     .cons (required "unidir_available_bandwidth" uint64) <|
     .cons (required "unidir_bandwidth_utilization" uint64) <|
     .cons (required "unidir_packet_loss" double) <|
     .cons (optional "normalized_delay" double 0.0) <|
     .cons (optional "normalized_jitter" double 0.0) <|
     .cons (optional "normalized_packet_loss" double 0.0) .nil)
    Link.mk

def Prefix.decoder : Decoder Prefix :=
  record
    (.cons (required "key" text) <|
     .cons (required "igp_router_id" text) <|
     .cons (required "network_address" text) <|
     .cons (required "prefix_length" uint8) .nil)
    Prefix.mk

def Sid.decoder : Decoder Sid :=
  record
    (.cons (required "key" text) <|
     .cons (required "igp_router_id" text) <|
     .cons (required "sid" text) <|
     .cons (optional "algorithm" uint8 0) .nil)
    Sid.mk

def Snapshot.decoder : Decoder Snapshot :=
  record
    (.cons (optional "nodes" (listOf Node.decoder) []) <|
     .cons (optional "links" (listOf Link.decoder) []) <|
     .cons (optional "prefixes" (listOf Prefix.decoder) []) <|
     .cons (optional "sids" (listOf Sid.decoder) []) .nil)
    Snapshot.mk

end TopologySync
