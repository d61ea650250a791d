-- Records with plausible telemetry to start from: every raw weight of the
-- link is populated, and the node goes by the name of its router.
import TopologySync.Record

namespace TopologySync.Fixtures

/-- A node of a router, which its key is made from. -/
def node (router : String) : Node where
  key := "node-" ++ router
  router := router
  name := router

/-- A link of ten gigabits per second, four fifths of them free. -/
def link (key source target : String) : Link where
  key := key
  source := source
  target := target
  igpMetric := 10
  delay := 1000
  jitter := 50
  maxBandwidth := 10000000000
  availableBandwidth := 8000000000
  utilizedBandwidth := 2000000000
  packetLoss := 0.1

/-- A segment identifier for the shortest path algorithm. -/
def sid (key router address : String) : Sid where
  key := key
  router := router
  address := address

end TopologySync.Fixtures
