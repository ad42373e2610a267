import PhpDriver.Data.Joined
import PhpDriver.Util.DecimalParse

namespace PhpDriver

open Data
open Data.Joined

/-! `ClusterBuilder::build` of `Cluster/Builder.c`: the key a persistent cluster is cached
under, and the settings it is made with. -/

inductive LoadBalancing where
  | default
  | roundRobin
  | dcAwareRoundRobin
deriving DecidableEq

def LoadBalancing.code : LoadBalancing → Int32
  | .default => 0
  | .roundRobin => 1
  | .dcAwareRoundRobin => 2

inductive Seconds where
  | long (seconds : Int)
  | double (bits : UInt64)
deriving DecidableEq

/-- Strings as they were passed, which may contain NUL bytes; the objects of the driver
by number. -/
structure ClusterBuilder where
  contactPoints : List UInt8 := ascii "127.0.0.1"
  port : Int32 := 9042
  loadBalancingPolicy : LoadBalancing := .default
  localDc : Option (List UInt8) := none
  usedHostsPerRemoteDc : UInt32 := 0
  allowRemoteDcsForLocalCl : Bool := false
  useTokenAwareRouting : Bool := true
  username : Option (List UInt8) := none
  password : Option (List UInt8) := none
  connectTimeout : UInt32 := 5000
  requestTimeout : UInt32 := 12000
  sslOptions : Option Nat := none
  defaultConsistency : Int := 0x0A
  defaultPageSize : Int32 := 5000
  defaultTimeout : Option Seconds := none
  persist : Bool := true
  protocolVersion : Int32 := 4
  ioThreads : Int32 := 1
  coreConnectionsPerHost : Int32 := 1
  maxConnectionsPerHost : Int32 := 2
  reconnectInterval : UInt32 := 2000
  enableLatencyAwareRouting : Bool := true
  enableTcpNodelay : Bool := true
  enableTcpKeepalive : Bool := false
  tcpKeepaliveDelay : UInt32 := 0
  retryPolicy : Option Nat := none
  timestampGen : Option Nat := none
  enableSchema : Bool := true
  blacklistHosts : Option (List UInt8) := none
  whitelistHosts : Option (List UInt8) := none
  blacklistDcs : Option (List UInt8) := none
  whitelistDcs : Option (List UInt8) := none
  enableHostnameResolution : Bool := false
  enableRandomizedContactPoints : Bool := true
  connectionHeartbeatInterval : UInt32 := 30
  /-- `withCredentials` sets both. -/
  credentialed : username.isSome = password.isSome := by rfl
  /-- `withDatacenterAwareRoundRobinLoadBalancingPolicy` sets both, and
  `withRoundRobinLoadBalancingPolicy` clears the name. -/
  localized : localDc.isSome = decide (loadBalancingPolicy = .dcAwareRoundRobin) := by rfl

theorem credentialed_some (username password : List UInt8) :
    (some username).isSome = (some password).isSome := rfl

theorem localized_some (localDc : List UInt8) :
    (some localDc).isSome = decide (LoadBalancing.dcAwareRoundRobin = .dcAwareRoundRobin) := rfl

theorem localized_none :
    (none : Option (List UInt8)).isSome =
      decide (LoadBalancing.roundRobin = .dcAwareRoundRobin) := rfl

def driverName : List UInt8 :=
  ascii "cassandra"

def sessionWord : List UInt8 :=
  ascii "session"

def keySeparator : UInt8 := ':'.toUInt8

/-- `%d`, which takes an unsigned number for a signed one. -/
def printed (n : Int32) : List UInt8 :=
  DecimalText.ofInt n.toInt

def flag (on : Bool) : Int32 :=
  if on then 1 else 0

def safeStr (text : Option (List UInt8)) : List UInt8 :=
  cString (text.getD [])

namespace ClusterBuilder

def keyed (self : ClusterBuilder) : List (List UInt8) :=
  [safeStr (some self.contactPoints), printed self.port, printed self.loadBalancingPolicy.code,
    safeStr self.localDc, printed self.usedHostsPerRemoteDc.toInt32,
    printed (flag self.allowRemoteDcsForLocalCl), printed (flag self.useTokenAwareRouting),
    safeStr self.username, safeStr self.password,
    printed self.connectTimeout.toInt32, printed self.requestTimeout.toInt32,
    printed self.protocolVersion, printed self.ioThreads,
    printed self.coreConnectionsPerHost, printed self.maxConnectionsPerHost,
    printed self.reconnectInterval.toInt32, printed (flag self.enableLatencyAwareRouting),
    printed (flag self.enableTcpNodelay), printed (flag self.enableTcpKeepalive),
    printed self.tcpKeepaliveDelay.toInt32, printed (flag self.enableSchema),
    printed (flag self.enableHostnameResolution),
    printed (flag self.enableRandomizedContactPoints),
    printed self.connectionHeartbeatInterval.toInt32,
    safeStr self.whitelistHosts, safeStr self.whitelistDcs,
    safeStr self.blacklistHosts, safeStr self.blacklistDcs]

/-- `build` makes the key only for a persistent cluster; here every builder has one. -/
def hashKey (self : ClusterBuilder) : List UInt8 :=
  joined keySeparator (driverName :: self.keyed)

end ClusterBuilder

def sessionKey (hashKey : List UInt8) (keyspace : Option (List UInt8)) : List UInt8 :=
  joined keySeparator [cString hashKey, sessionWord, safeStr keyspace]

inductive LoadBalance where
  | unset
  | roundRobin
  | dcAware (localDc : Option (List UInt8)) (usedHostsPerRemoteDc : UInt32)
      (allowRemoteDcsForLocalCl : Bool)
deriving DecidableEq

/-- What the `cass_cluster_set_*` functions are called with; `none` where one is not. -/
structure ClusterSettings where
  loadBalance : LoadBalance
  blacklistFiltering : Option (List UInt8)
  whitelistFiltering : Option (List UInt8)
  blacklistDcFiltering : Option (List UInt8)
  whitelistDcFiltering : Option (List UInt8)
  tokenAwareRouting : Bool
  credentials : Option (List UInt8 × Option (List UInt8))
  connectTimeout : UInt32
  requestTimeout : UInt32
  ssl : Option Nat
  contactPoints : List UInt8
  port : Int32
  protocolVersion : Int32
  numThreadsIo : Int32
  coreConnectionsPerHost : Int32
  maxConnectionsPerHost : Int32
  reconnectWaitTime : UInt32
  latencyAwareRouting : Bool
  tcpNodelay : Bool
  tcpKeepalive : Bool × UInt32
  useSchema : Bool
  useHostnameResolution : Bool
  useRandomizedContactPoints : Bool
  connectionHeartbeatInterval : UInt32
  timestampGen : Option Nat
  retryPolicy : Option Nat
deriving DecidableEq

namespace ClusterBuilder

def loadBalance (self : ClusterBuilder) : LoadBalance :=
  match self.loadBalancingPolicy with
  | .default => .unset
  | .roundRobin => .roundRobin
  | .dcAwareRoundRobin =>
      .dcAware (self.localDc.map cString) self.usedHostsPerRemoteDc
        self.allowRemoteDcsForLocalCl

/-- The `CassCluster` that `build` makes when nothing is cached. -/
def settings (self : ClusterBuilder) : ClusterSettings where
  loadBalance := self.loadBalance
  blacklistFiltering := self.blacklistHosts.map cString
  whitelistFiltering := self.whitelistHosts.map cString
  blacklistDcFiltering := self.blacklistDcs.map cString
  whitelistDcFiltering := self.whitelistDcs.map cString
  tokenAwareRouting := self.useTokenAwareRouting
  credentials := self.username.map fun username =>
    (cString username, self.password.map cString)
  connectTimeout := self.connectTimeout
  requestTimeout := self.requestTimeout
  ssl := self.sslOptions
  contactPoints := cString self.contactPoints
  port := self.port
  protocolVersion := self.protocolVersion
  numThreadsIo := self.ioThreads
  coreConnectionsPerHost := self.coreConnectionsPerHost
  maxConnectionsPerHost := self.maxConnectionsPerHost
  reconnectWaitTime := self.reconnectInterval
  latencyAwareRouting := self.enableLatencyAwareRouting
  tcpNodelay := self.enableTcpNodelay
  tcpKeepalive := (self.enableTcpKeepalive, self.tcpKeepaliveDelay)
  useSchema := self.enableSchema
  useHostnameResolution := self.enableHostnameResolution
  useRandomizedContactPoints := self.enableRandomizedContactPoints
  connectionHeartbeatInterval := self.connectionHeartbeatInterval
  timestampGen := self.timestampGen
  retryPolicy := self.retryPolicy

end ClusterBuilder

structure ClusterDefaults where
  defaultConsistency : Int
  defaultPageSize : Int32
  defaultTimeout : Option Seconds
deriving DecidableEq

def ClusterBuilder.defaults (self : ClusterBuilder) : ClusterDefaults where
  defaultConsistency := self.defaultConsistency
  defaultPageSize := self.defaultPageSize
  defaultTimeout := self.defaultTimeout

end PhpDriver
