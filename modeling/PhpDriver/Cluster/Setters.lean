import PhpDriver.Argument
import PhpDriver.Cluster.Builder
import PhpDriver.Data.IeeeScaled
import PhpDriver.Session.Options

namespace PhpDriver

open Data

/-! The `with*` methods of `Cluster/Builder.c`. -/

/-- How the parameters of a built-in type are converted, which fails with an exception. -/
structure ParameterParsing where
  string : PhpArgument → Option (List UInt8)
  bool : PhpArgument → Option Bool
  double : PhpArgument → Option (BitVec 64)

inductive SetterError where
  /-- What `zend_parse_parameters` throws. -/
  | parameters
  | invalid (name expected : String)
deriving DecidableEq

inductive Setting where
  | store (assign : ClusterBuilder → ClusterBuilder)
  | throw (error : SetterError)
  | undefined

def Setting.invalid (name expected : String) : Setting :=
  .throw (.invalid name expected)

/-- The object after the call; `none` stands for undefined behaviour. -/
abbrev SetterResult :=
  Option (ClusterBuilder × Except SetterError Unit)

def Setting.apply (self : ClusterBuilder) : Setting → SetterResult
  | .store assign => some (assign self, .ok ())
  | .throw error => some (self, .error error)
  | .undefined => none

/-- `"|b"`, which is true by default. -/
def withFlag (parsing : ParameterParsing) (assign : Bool → ClusterBuilder → ClusterBuilder) :
    List PhpArgument → Setting
  | [] => .store (assign true)
  | [argument] =>
      match parsing.bool argument with
      | some enabled => .store (assign enabled)
      | none => .throw .parameters
  | _ => .throw .parameters

def PhpArgument.bytes : PhpArgument → Option (List UInt8)
  | .string bytes => some bytes
  | _ => none

def withStrings (name expected : String) (assign : List UInt8 → ClusterBuilder → ClusterBuilder)
    (arguments : List PhpArgument) : Setting :=
  if arguments = [] then .throw .parameters
  else
    match arguments.mapM PhpArgument.bytes with
    | some strings => .store (assign (Joined.joined (','.toUInt8) strings))
    | none => .invalid name expected

def withValue (read : PhpArgument → Setting) : List PhpArgument → Setting
  | [argument] => read argument
  | _ => .throw .parameters

/-- A `double` as an `unsigned int`, which it has to fit. -/
def unsignedOf (number : Option Int) (assign : UInt32 → ClusterBuilder → ClusterBuilder) :
    Setting :=
  match number with
  | none => .undefined
  | some number =>
      if 0 ≤ number ∧ number < 2 ^ 32 then .store (assign (UInt32.ofNat number.toNat))
      else .undefined

def isNonnegative (bits : BitVec 64) : Bool :=
  !Ieee.isNan 52 bits && !Ieee.less 52 bits 0

def withSeconds (name expected : String) (assign : UInt32 → ClusterBuilder → ClusterBuilder) :
    PhpArgument → Setting
  | .long seconds =>
      if 0 < seconds.toInt then .store (assign (UInt32.ofBitVec ((seconds * 1000).setWidth 32)))
      else .invalid name expected
  | .double bits =>
      if isPositive bits then unsignedOf (Ieee.ceilScaled 52 1000 bits) assign
      else .invalid name expected
  | _ => .invalid name expected

def withHeartbeat (name expected : String) (assign : UInt32 → ClusterBuilder → ClusterBuilder) :
    PhpArgument → Setting
  | .long seconds =>
      if 0 ≤ seconds.toInt then .store (assign (UInt32.ofBitVec (seconds.setWidth 32)))
      else .invalid name expected
  | .double bits =>
      if isNonnegative bits then unsignedOf (Ieee.ceilScaled 52 1 bits) assign
      else .invalid name expected
  | _ => .invalid name expected

def withInteger (name expected : String) (holds : Int → Bool)
    (assign : Int32 → ClusterBuilder → ClusterBuilder) : PhpArgument → Setting
  | .long number =>
      if holds number.toInt then .store (assign (Int32.ofBitVec (number.setWidth 32)))
      else .invalid name expected
  | _ => .invalid name expected

section

variable (parsing : ParameterParsing) (arguments : List PhpArgument)

def withDefaultConsistency : Setting :=
  withValue (fun consistency =>
    match getConsistency { value := consistency } with
    | .ok level => .store fun self => { self with defaultConsistency := level }
    | .error _ => .invalid "consistency" "one of Cassandra::CONSISTENCY_*") arguments

def withDefaultPageSize : Setting :=
  withValue (fun pageSize =>
    match pageSize with
    | .null => .store fun self => { self with defaultPageSize := -1 }
    | _ =>
        withInteger "pageSize" "a positive integer or null" (0 < ·)
          (fun pageSize self => { self with defaultPageSize := pageSize }) pageSize) arguments

/-- The bits of a double are compared as an integer. -/
def withDefaultTimeout : Setting :=
  withValue (fun timeout =>
    match timeout with
    | .null => .store fun self => { self with defaultTimeout := none }
    | .long seconds =>
        if 0 < seconds.toInt then
          .store fun self => { self with defaultTimeout := some (.long seconds.toInt) }
        else .invalid "timeout" "a number of seconds greater than zero or null"
    | .double bits =>
        if 0 < bits.toInt then
          .store fun self => { self with defaultTimeout := some (.double (UInt64.ofBitVec bits)) }
        else .invalid "timeout" "a number of seconds greater than zero or null"
    | _ => .invalid "timeout" "a number of seconds greater than zero or null") arguments

def withContactPoints : Setting :=
  withStrings "host" "a string ip address or hostname"
    (fun hosts self => { self with contactPoints := hosts }) arguments

def withPort : Setting :=
  withValue (withInteger "port" "an integer between 1 and 65535"
    (fun port => 0 < port ∧ port < 65536) (fun port self => { self with port })) arguments

def withRoundRobinLoadBalancingPolicy : Setting :=
  match arguments with
  | [] =>
      .store fun self => { self with
        loadBalancingPolicy := .roundRobin
        localDc := none
        localized := localized_none }
  | _ => .throw .parameters

def withDatacenterAwareRoundRobinLoadBalancingPolicy : Setting :=
  match arguments with
  | [localDc, hostPerRemoteDatacenter, allowRemoteDcs] =>
      match parsing.string localDc, parsing.bool allowRemoteDcs with
      | some localDc, some allowRemoteDcs =>
          match hostPerRemoteDatacenter with
          | .long hosts =>
              if hosts.toInt < 0 then .invalid "hostPerRemoteDatacenter" "a positive integer"
              else
                .store fun self => { self with
                  loadBalancingPolicy := .dcAwareRoundRobin
                  localDc := some localDc
                  usedHostsPerRemoteDc := UInt32.ofBitVec (hosts.setWidth 32)
                  allowRemoteDcsForLocalCl := allowRemoteDcs
                  localized := localized_some localDc }
          | _ => .invalid "hostPerRemoteDatacenter" "a positive integer"
      | _, _ => .throw .parameters
  | _ => .throw .parameters

def withBlackListHosts : Setting :=
  withStrings "hosts" "a string ip address or hostname"
    (fun hosts self => { self with blacklistHosts := some hosts }) arguments

def withWhiteListHosts : Setting :=
  withStrings "hosts" "a string ip address or hostname"
    (fun hosts self => { self with whitelistHosts := some hosts }) arguments

def withBlackListDCs : Setting :=
  withStrings "dcs" "a string" (fun dcs self => { self with blacklistDcs := some dcs }) arguments

def withWhiteListDCs : Setting :=
  withStrings "dcs" "a string" (fun dcs self => { self with whitelistDcs := some dcs }) arguments

def withTokenAwareRouting : Setting :=
  withFlag parsing (fun enabled self => { self with useTokenAwareRouting := enabled }) arguments

def withCredentials : Setting :=
  match arguments with
  | [.string username, .string password] =>
      .store fun self => { self with
        username := some username
        password := some password
        credentialed := credentialed_some username password }
  | [.string _, _] => .invalid "password" "a string"
  | [_, _] => .invalid "username" "a string"
  | _ => .throw .parameters

def withConnectTimeout : Setting :=
  withValue (withSeconds "timeout" "a positive number"
    fun timeout self => { self with connectTimeout := timeout }) arguments

def withRequestTimeout : Setting :=
  withValue (fun timeout =>
    match parsing.double timeout with
    | some bits =>
        unsignedOf (Ieee.ceilScaled 52 1000 bits)
          fun timeout self => { self with requestTimeout := timeout }
    | none => .throw .parameters) arguments

def withSSL : Setting :=
  withValue (fun options =>
    match options with
    | .object (.sslOptions options) => .store fun self => { self with sslOptions := some options }
    | _ => .throw .parameters) arguments

def withPersistentSessions : Setting :=
  withFlag parsing (fun enabled self => { self with persist := enabled }) arguments

def withProtocolVersion : Setting :=
  withValue (withInteger "version" "must be >= 1" (1 ≤ ·)
    (fun version self => { self with protocolVersion := version })) arguments

def withIOThreads : Setting :=
  withValue (withInteger "count" "a number between 1 and 128"
    (fun count => 0 < count ∧ count < 129) (fun count self => { self with ioThreads := count }))
    arguments

def maxConnections (core : BitVec 64) : Option PhpArgument → Except SetterError (BitVec 64)
  | none | some .null => .ok core
  | some (.long max) =>
      if max.toInt < core.toInt then .error (.invalid "max" "greater than core")
      else if 128 < max.toInt then .error (.invalid "max" "less than 128")
      else .ok max
  | some _ => .error (.invalid "max" "a number between 1 and 128")

def withConnectionsPerHost (self : ClusterBuilder) (core : PhpArgument)
    (max : Option PhpArgument) : SetterResult :=
  match core with
  | .long core =>
      if core.toInt < 129 ∧ 0 < core.toInt then
        let self := { self with coreConnectionsPerHost := Int32.ofBitVec (core.setWidth 32) }
        match maxConnections core max with
        | .ok max =>
            some ({ self with maxConnectionsPerHost := Int32.ofBitVec (max.setWidth 32) }, .ok ())
        | .error error => some (self, .error error)
      else some (self, .error (.invalid "core" "a number between 1 and 128"))
  | _ => some (self, .error (.invalid "core" "a number between 1 and 128"))

def withReconnectInterval : Setting :=
  withValue (withSeconds "interval" "a positive number"
    fun interval self => { self with reconnectInterval := interval }) arguments

def withLatencyAwareRouting : Setting :=
  withFlag parsing (fun enabled self => { self with enableLatencyAwareRouting := enabled })
    arguments

def withTCPNodelay : Setting :=
  withFlag parsing (fun enabled self => { self with enableTcpNodelay := enabled }) arguments

def withTCPKeepalive : Setting :=
  withValue (fun delay =>
    match delay with
    | .null =>
        .store fun self => { self with enableTcpKeepalive := false, tcpKeepaliveDelay := 0 }
    | _ =>
        withSeconds "delay" "a positive number or null"
          (fun delay self =>
            { self with enableTcpKeepalive := true, tcpKeepaliveDelay := delay }) delay) arguments

def withRetryPolicy : Setting :=
  withValue (fun policy =>
    match policy with
    | .object (.retryPolicy policy) => .store fun self => { self with retryPolicy := some policy }
    | _ => .throw .parameters) arguments

def withTimestampGenerator : Setting :=
  withValue (fun generator =>
    match generator with
    | .object (.timestampGenerator generator) =>
        .store fun self => { self with timestampGen := some generator }
    | _ => .throw .parameters) arguments

def withSchemaMetadata : Setting :=
  withFlag parsing (fun enabled self => { self with enableSchema := enabled }) arguments

def withHostnameResolution : Setting :=
  withFlag parsing (fun enabled self => { self with enableHostnameResolution := enabled })
    arguments

def withRandomizedContactPoints : Setting :=
  withFlag parsing (fun enabled self => { self with enableRandomizedContactPoints := enabled })
    arguments

def withConnectionHeartbeatInterval : Setting :=
  withValue (withHeartbeat "interval" "a positive number (or 0 to disable)"
    fun interval self => { self with connectionHeartbeatInterval := interval }) arguments

end

inductive Setter where
  | withDefaultConsistency | withDefaultPageSize | withDefaultTimeout | withContactPoints
  | withPort | withRoundRobinLoadBalancingPolicy
  | withDatacenterAwareRoundRobinLoadBalancingPolicy | withBlackListHosts | withWhiteListHosts
  | withBlackListDCs | withWhiteListDCs | withTokenAwareRouting | withCredentials
  | withConnectTimeout | withRequestTimeout | withSSL | withPersistentSessions
  | withProtocolVersion | withIOThreads | withConnectionsPerHost | withReconnectInterval
  | withLatencyAwareRouting | withTCPNodelay | withTCPKeepalive | withRetryPolicy
  | withTimestampGenerator | withSchemaMetadata | withHostnameResolution
  | withRandomizedContactPoints | withConnectionHeartbeatInterval
deriving DecidableEq

structure SetterCall where
  setter : Setter
  arguments : List PhpArgument

/-- All but `withConnectionsPerHost`, which is not one step. -/
def SetterCall.setting (parsing : ParameterParsing) (call : SetterCall) : Setting :=
  match call.setter with
  | .withDefaultConsistency => PhpDriver.withDefaultConsistency call.arguments
  | .withDefaultPageSize => PhpDriver.withDefaultPageSize call.arguments
  | .withDefaultTimeout => PhpDriver.withDefaultTimeout call.arguments
  | .withContactPoints => PhpDriver.withContactPoints call.arguments
  | .withPort => PhpDriver.withPort call.arguments
  | .withRoundRobinLoadBalancingPolicy =>
      PhpDriver.withRoundRobinLoadBalancingPolicy call.arguments
  | .withDatacenterAwareRoundRobinLoadBalancingPolicy =>
      PhpDriver.withDatacenterAwareRoundRobinLoadBalancingPolicy parsing call.arguments
  | .withBlackListHosts => PhpDriver.withBlackListHosts call.arguments
  | .withWhiteListHosts => PhpDriver.withWhiteListHosts call.arguments
  | .withBlackListDCs => PhpDriver.withBlackListDCs call.arguments
  | .withWhiteListDCs => PhpDriver.withWhiteListDCs call.arguments
  | .withTokenAwareRouting => PhpDriver.withTokenAwareRouting parsing call.arguments
  | .withCredentials => PhpDriver.withCredentials call.arguments
  | .withConnectTimeout => PhpDriver.withConnectTimeout call.arguments
  | .withRequestTimeout => PhpDriver.withRequestTimeout parsing call.arguments
  | .withSSL => PhpDriver.withSSL call.arguments
  | .withPersistentSessions => PhpDriver.withPersistentSessions parsing call.arguments
  | .withProtocolVersion => PhpDriver.withProtocolVersion call.arguments
  | .withIOThreads => PhpDriver.withIOThreads call.arguments
  | .withConnectionsPerHost => .throw .parameters
  | .withReconnectInterval => PhpDriver.withReconnectInterval call.arguments
  | .withLatencyAwareRouting => PhpDriver.withLatencyAwareRouting parsing call.arguments
  | .withTCPNodelay => PhpDriver.withTCPNodelay parsing call.arguments
  | .withTCPKeepalive => PhpDriver.withTCPKeepalive call.arguments
  | .withRetryPolicy => PhpDriver.withRetryPolicy call.arguments
  | .withTimestampGenerator => PhpDriver.withTimestampGenerator call.arguments
  | .withSchemaMetadata => PhpDriver.withSchemaMetadata parsing call.arguments
  | .withHostnameResolution => PhpDriver.withHostnameResolution parsing call.arguments
  | .withRandomizedContactPoints => PhpDriver.withRandomizedContactPoints parsing call.arguments
  | .withConnectionHeartbeatInterval =>
      PhpDriver.withConnectionHeartbeatInterval call.arguments

def SetterCall.run (parsing : ParameterParsing) (self : ClusterBuilder) (call : SetterCall) :
    SetterResult :=
  match call.setter, call.arguments with
  | .withConnectionsPerHost, [core] => withConnectionsPerHost self core none
  | .withConnectionsPerHost, [core, max] => withConnectionsPerHost self core (some max)
  | _, _ => (call.setting parsing).apply self

end PhpDriver
