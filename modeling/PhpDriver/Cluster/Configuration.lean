import PhpDriver.Cluster.Setters

namespace PhpDriver

open Data

/-! The setters of a builder change all of their fields or none, and keep it valid. -/

def flagOf (parsing : ParameterParsing) : List PhpArgument → Option Bool
  | [] => some true
  | [argument] => parsing.bool argument
  | _ => none

def timeOf (scale : Nat) : PhpArgument → Option Int
  | .long seconds => some (seconds.toInt * scale)
  | .double bits => Ieee.ceilScaled 52 scale bits
  | _ => none

section

variable (after : ClusterBuilder)

def FlagAssigned (flag : Option Bool) (assign : Bool → ClusterBuilder) : Prop :=
  ∃ enabled, flag = some enabled ∧ after = assign enabled

def StringsAssigned (arguments : List PhpArgument) (assign : List UInt8 → ClusterBuilder) : Prop :=
  ∃ strings : List (List UInt8), arguments = strings.map .string ∧
    after = assign (Joined.joined (','.toUInt8) strings)

def UnsignedAssigned (number : Option Int) (assign : UInt32 → ClusterBuilder) : Prop :=
  ∃ field : UInt32, number = some (field.toNat : Int) ∧ after = assign field

def IntegerAssigned (argument : PhpArgument) (assign : Int32 → ClusterBuilder) : Prop :=
  ∃ (number : BitVec 64) (field : Int32), argument = .long number ∧
    field.toInt = number.toInt ∧ after = assign field

end

def maxOf (core : BitVec 64) : List PhpArgument → Option (BitVec 64)
  | [] | [.null] => some core
  | [.long max] => some max
  | _ => none

namespace SetterCall

/-- The own fields of the setter hold what is given, and nothing else has changed. -/
def Assigns (parsing : ParameterParsing) (call : SetterCall) (before after : ClusterBuilder) :
    Prop :=
  match call.setter with
  | .withDefaultConsistency =>
      ∃ level : BitVec 64, call.arguments = [.long level] ∧
        after = { before with defaultConsistency := level.toInt }
  | .withDefaultPageSize =>
      (call.arguments = [.null] ∧ after = { before with defaultPageSize := -1 }) ∨
      ∃ pageSize, call.arguments = [pageSize] ∧
        IntegerAssigned after pageSize fun field => { before with defaultPageSize := field }
  | .withDefaultTimeout =>
      (call.arguments = [.null] ∧ after = { before with defaultTimeout := none }) ∨
      (∃ seconds : BitVec 64, call.arguments = [.long seconds] ∧
        after = { before with defaultTimeout := some (.long seconds.toInt) }) ∨
      ∃ bits, call.arguments = [.double bits] ∧
        after = { before with defaultTimeout := some (.double (UInt64.ofBitVec bits)) }
  | .withContactPoints =>
      StringsAssigned after call.arguments fun hosts => { before with contactPoints := hosts }
  | .withPort =>
      ∃ port, call.arguments = [port] ∧
        IntegerAssigned after port fun field => { before with port := field }
  | .withRoundRobinLoadBalancingPolicy =>
      call.arguments = [] ∧ after = { before with
        loadBalancingPolicy := .roundRobin
        localDc := none
        localized := localized_none }
  | .withDatacenterAwareRoundRobinLoadBalancingPolicy =>
      ∃ localDc hosts allowed dc allow, call.arguments = [localDc, .long hosts, allowed] ∧
        parsing.string localDc = some dc ∧ parsing.bool allowed = some allow ∧
        UnsignedAssigned after (some hosts.toInt) fun field => { before with
          loadBalancingPolicy := .dcAwareRoundRobin
          localDc := some dc
          usedHostsPerRemoteDc := field
          allowRemoteDcsForLocalCl := allow
          localized := localized_some dc }
  | .withBlackListHosts =>
      StringsAssigned after call.arguments fun hosts =>
        { before with blacklistHosts := some hosts }
  | .withWhiteListHosts =>
      StringsAssigned after call.arguments fun hosts =>
        { before with whitelistHosts := some hosts }
  | .withBlackListDCs =>
      StringsAssigned after call.arguments fun dcs => { before with blacklistDcs := some dcs }
  | .withWhiteListDCs =>
      StringsAssigned after call.arguments fun dcs => { before with whitelistDcs := some dcs }
  | .withTokenAwareRouting =>
      FlagAssigned after (flagOf parsing call.arguments) fun enabled =>
        { before with useTokenAwareRouting := enabled }
  | .withCredentials =>
      ∃ username password, call.arguments = [.string username, .string password] ∧
        after = { before with
          username := some username
          password := some password
          credentialed := credentialed_some username password }
  | .withConnectTimeout =>
      ∃ timeout, call.arguments = [timeout] ∧
        UnsignedAssigned after (timeOf 1000 timeout) fun field =>
          { before with connectTimeout := field }
  | .withRequestTimeout =>
      ∃ timeout, call.arguments = [timeout] ∧
        UnsignedAssigned after ((parsing.double timeout).bind (Ieee.ceilScaled 52 1000)) fun field =>
          { before with requestTimeout := field }
  | .withSSL =>
      ∃ options, call.arguments = [.object (.sslOptions options)] ∧
        after = { before with sslOptions := some options }
  | .withPersistentSessions =>
      FlagAssigned after (flagOf parsing call.arguments) fun enabled =>
        { before with persist := enabled }
  | .withProtocolVersion =>
      ∃ version, call.arguments = [version] ∧
        IntegerAssigned after version fun field => { before with protocolVersion := field }
  | .withIOThreads =>
      ∃ count, call.arguments = [count] ∧
        IntegerAssigned after count fun field => { before with ioThreads := field }
  | .withConnectionsPerHost =>
      ∃ (core max : BitVec 64) (rest : List PhpArgument) (coreField maxField : Int32),
        call.arguments = .long core :: rest ∧ maxOf core rest = some max ∧
        coreField.toInt = core.toInt ∧ maxField.toInt = max.toInt ∧
        after = { before with
          coreConnectionsPerHost := coreField
          maxConnectionsPerHost := maxField }
  | .withReconnectInterval =>
      ∃ interval, call.arguments = [interval] ∧
        UnsignedAssigned after (timeOf 1000 interval) fun field =>
          { before with reconnectInterval := field }
  | .withLatencyAwareRouting =>
      FlagAssigned after (flagOf parsing call.arguments) fun enabled =>
        { before with enableLatencyAwareRouting := enabled }
  | .withTCPNodelay =>
      FlagAssigned after (flagOf parsing call.arguments) fun enabled =>
        { before with enableTcpNodelay := enabled }
  | .withTCPKeepalive =>
      (call.arguments = [.null] ∧
        after = { before with enableTcpKeepalive := false, tcpKeepaliveDelay := 0 }) ∨
      ∃ delay, call.arguments = [delay] ∧
        UnsignedAssigned after (timeOf 1000 delay) fun field =>
          { before with enableTcpKeepalive := true, tcpKeepaliveDelay := field }
  | .withRetryPolicy =>
      ∃ policy, call.arguments = [.object (.retryPolicy policy)] ∧
        after = { before with retryPolicy := some policy }
  | .withTimestampGenerator =>
      ∃ generator, call.arguments = [.object (.timestampGenerator generator)] ∧
        after = { before with timestampGen := some generator }
  | .withSchemaMetadata =>
      FlagAssigned after (flagOf parsing call.arguments) fun enabled =>
        { before with enableSchema := enabled }
  | .withHostnameResolution =>
      FlagAssigned after (flagOf parsing call.arguments) fun enabled =>
        { before with enableHostnameResolution := enabled }
  | .withRandomizedContactPoints =>
      FlagAssigned after (flagOf parsing call.arguments) fun enabled =>
        { before with enableRandomizedContactPoints := enabled }
  | .withConnectionHeartbeatInterval =>
      ∃ interval, call.arguments = [interval] ∧
        UnsignedAssigned after (timeOf 1 interval) fun field =>
          { before with connectionHeartbeatInterval := field }

/-- A call that throws changes nothing, and a call that returns has assigned. -/
structure Atomic (parsing : ParameterParsing) (before : ClusterBuilder) (call : SetterCall) :
    Prop where
  defined : call.run parsing before ≠ none
  thrown : ∀ after error, call.run parsing before = some (after, .error error) → after = before
  returned : ∀ after, call.run parsing before = some (after, .ok ()) →
    call.Assigns parsing before after

end SetterCall

structure ValidConfiguration (core max port ioThreads : Int) : Prop where
  positive : 1 ≤ core
  ordered : core ≤ max
  bounded : max ≤ 128
  ported : 1 ≤ port ∧ port ≤ 65535
  threaded : 1 ≤ ioThreads ∧ ioThreads ≤ 128

def ClusterBuilder.Valid (self : ClusterBuilder) : Prop :=
  ValidConfiguration self.coreConnectionsPerHost.toInt self.maxConnectionsPerHost.toInt
    self.port.toInt self.ioThreads.toInt

def FitsUnsigned (number : Option Int) : Prop :=
  ∃ fits, number = some fits ∧ 0 ≤ fits ∧ fits < 2 ^ 32

/-- A number of seconds that is not refused fits its field. -/
def SecondsFit : PhpArgument → Prop
  | .long seconds => 0 < seconds.toInt → seconds.toInt * 1000 < 2 ^ 32
  | .double bits => isPositive bits → FitsUnsigned (Ieee.ceilScaled 52 1000 bits)
  | _ => True

def HeartbeatFits : PhpArgument → Prop
  | .long seconds => 0 ≤ seconds.toInt → seconds.toInt < 2 ^ 32
  | .double bits => isNonnegative bits → FitsUnsigned (Ieee.ceilScaled 52 1 bits)
  | _ => True

/-- No number is too large for its field, and no core is given together with a maximum that is
refused, unless it is the core that the builder has. -/
def SetterCall.Sound (parsing : ParameterParsing) (self : ClusterBuilder) (call : SetterCall) :
    Prop :=
  match call.setter with
  | .withDefaultPageSize =>
      ∀ size : BitVec 64, call.arguments = [.long size] → size.toInt < 2 ^ 31
  | .withDatacenterAwareRoundRobinLoadBalancingPolicy =>
      ∀ localDc hosts allowed, call.arguments = [localDc, .long hosts, allowed] →
        (parsing.string localDc).isSome → (parsing.bool allowed).isSome → hosts.toInt < 2 ^ 32
  | .withConnectTimeout | .withReconnectInterval | .withTCPKeepalive =>
      ∀ time, call.arguments = [time] → SecondsFit time
  | .withRequestTimeout =>
      ∀ timeout, call.arguments = [timeout] → (parsing.double timeout).isSome →
        FitsUnsigned ((parsing.double timeout).bind (Ieee.ceilScaled 52 1000))
  | .withProtocolVersion =>
      ∀ version : BitVec 64, call.arguments = [.long version] → version.toInt < 2 ^ 31
  | .withConnectionsPerHost =>
      ∀ core max, call.arguments = [.long core, max] → 1 ≤ core.toInt → core.toInt ≤ 128 →
        (∃ error, maxConnections core (some max) = .error error) →
          self.coreConnectionsPerHost.toInt = core.toInt
  | .withConnectionHeartbeatInterval =>
      ∀ interval, call.arguments = [interval] → HeartbeatFits interval
  | _ => True

end PhpDriver
