import PhpDriver.Cluster.Configuration
import PhpDriver.Data.Run

namespace PhpDriver

open Data

/-! Which calls of the setters are atomic, and what they keep. -/

theorem toInt_narrow {number : BitVec 64} (least : -2 ^ 31 ≤ number.toInt)
    (bound : number.toInt < 2 ^ 31) : (Int32.ofBitVec (number.setWidth 32)).toInt = number.toInt := by
  rw [Int32.toInt_ofBitVec, BitVec.toInt_setWidth, Int.bmod_def]
  have nat := BitVec.toInt_eq_toNat_cond number
  split at nat <;> omega

theorem toNat_narrow {number : BitVec 64} (least : 0 ≤ number.toInt)
    (bound : number.toInt < 2 ^ 32) :
    ((UInt32.ofBitVec (number.setWidth 32)).toNat : Int) = number.toInt := by
  rw [UInt32.toNat_ofBitVec, BitVec.toNat_setWidth]
  have nat := BitVec.toInt_eq_toNat_cond number
  split at nat <;> omega

theorem toNat_thousand {number : BitVec 64} (least : 0 < number.toInt)
    (bound : number.toInt * 1000 < 2 ^ 32) :
    ((UInt32.ofBitVec ((number * 1000).setWidth 32)).toNat : Int) = number.toInt * 1000 := by
  rw [UInt32.toNat_ofBitVec, BitVec.toNat_setWidth, BitVec.toNat_mul]
  have nat := BitVec.toInt_eq_toNat_cond number
  have thousand : (1000 : BitVec 64).toNat = 1000 := rfl
  rw [thousand]
  split at nat <;> omega

theorem toNat_lt (field : UInt32) : (field.toNat : Int) < 2 ^ 32 := by
  have bound := field.toNat_lt
  omega

/-- A setting is defined, and if it stores, then as assigned. -/
structure Setting.Exact (setting : Setting) (before : ClusterBuilder)
    (assigned : ClusterBuilder → Prop) : Prop where
  defined : setting ≠ .undefined
  stored : ∀ assign, setting = .store assign → assigned (assign before)

namespace Setting

variable {before : ClusterBuilder}

theorem exact_store {assign : ClusterBuilder → ClusterBuilder} {assigned : ClusterBuilder → Prop} :
    (Setting.store assign).Exact before assigned ↔ assigned (assign before) := by
  constructor
  · intro exact
    exact exact.stored assign rfl
  · intro stored
    refine ⟨by simp, ?_⟩
    intro other same
    cases same
    exact stored

theorem exact_throw {error : SetterError} {assigned : ClusterBuilder → Prop} :
    (Setting.throw error).Exact before assigned :=
  ⟨by simp, by simp⟩

theorem exact_invalid {name expected : String} {assigned : ClusterBuilder → Prop} :
    (Setting.invalid name expected).Exact before assigned :=
  exact_throw

theorem not_exact_undefined {assigned : ClusterBuilder → Prop} :
    ¬Setting.undefined.Exact before assigned :=
  fun exact => exact.defined rfl

theorem exact_flag (parsing : ParameterParsing)
    (assign : Bool → ClusterBuilder → ClusterBuilder) (arguments : List PhpArgument) :
    (withFlag parsing assign arguments).Exact before fun after =>
      FlagAssigned after (flagOf parsing arguments) fun enabled => assign enabled before := by
  match arguments with
  | [] => exact exact_store.mpr ⟨true, rfl, rfl⟩
  | [argument] =>
      simp only [withFlag]
      cases parsed : parsing.bool argument with
      | some enabled => exact exact_store.mpr ⟨enabled, parsed, rfl⟩
      | none => exact exact_throw
  | _ :: _ :: _ => exact exact_throw

theorem bytes_eq_some {argument : PhpArgument} {bytes : List UInt8}
    (string : argument.bytes = some bytes) : argument = .string bytes := by
  cases argument with
  | string given => exact congrArg PhpArgument.string (Option.some.inj string)
  | _ => cases string

theorem mapM_bytes {arguments : List PhpArgument} {strings : List (List UInt8)}
    (all : arguments.mapM PhpArgument.bytes = some strings) :
    arguments = strings.map .string := by
  induction arguments generalizing strings with
  | nil =>
      cases all
      rfl
  | cons argument arguments ih =>
      simp only [List.mapM_cons, Option.bind_eq_bind, Option.bind_eq_some_iff] at all
      obtain ⟨bytes, string, rest, others, same⟩ := all
      cases same
      rw [bytes_eq_some string, ih others]
      rfl

theorem exact_strings (name expected : String)
    (assign : List UInt8 → ClusterBuilder → ClusterBuilder) (arguments : List PhpArgument) :
    (withStrings name expected assign arguments).Exact before fun after =>
      StringsAssigned after arguments fun strings => assign strings before := by
  unfold withStrings
  split
  · exact exact_throw
  · split
    · rename_i strings all
      exact exact_store.mpr ⟨strings, mapM_bytes all, rfl⟩
    · exact exact_invalid

theorem exact_value (read : PhpArgument → Setting) (arguments : List PhpArgument)
    (assigned : PhpArgument → ClusterBuilder → Prop) :
    (withValue read arguments).Exact before
        (fun after => ∃ argument, arguments = [argument] ∧ assigned argument after) ↔
      ∀ argument, arguments = [argument] → (read argument).Exact before (assigned argument) := by
  match arguments with
  | [] => exact iff_of_true exact_throw (by simp)
  | [argument] =>
      simp [withValue]
  | _ :: _ :: _ => exact iff_of_true exact_throw (by simp)

theorem exact_unsigned (number : Option Int) (assign : UInt32 → ClusterBuilder → ClusterBuilder) :
    (unsignedOf number assign).Exact before
        (fun after => UnsignedAssigned after number fun field => assign field before) ↔
      FitsUnsigned number := by
  cases number with
  | none => exact iff_of_false not_exact_undefined (by rintro ⟨_, none, _⟩; cases none)
  | some number =>
      simp only [unsignedOf]
      split
      · rename_i fits
        refine iff_of_true (exact_store.mpr ⟨_, ?_, rfl⟩) ⟨number, rfl, fits⟩
        rw [UInt32.toNat_ofNat_of_lt' (by simp [UInt32.size]; omega)]
        simp [fits.1]
      · rename_i large
        refine iff_of_false not_exact_undefined ?_
        rintro ⟨_, same, fits⟩
        cases same
        exact large fits

theorem exact_seconds (name expected : String)
    (assign : UInt32 → ClusterBuilder → ClusterBuilder) (time : PhpArgument) :
    (withSeconds name expected assign time).Exact before
        (fun after => UnsignedAssigned after (timeOf 1000 time) fun field => assign field before) ↔
      SecondsFit time := by
  cases time with
  | long seconds =>
      simp only [withSeconds, SecondsFit]
      split
      · rename_i positive
        rw [exact_store]
        constructor
        · rintro ⟨field, same, _⟩ _
          have bound := toNat_lt field
          simp only [timeOf, Option.some.injEq] at same
          omega
        · intro fits
          exact ⟨_, congrArg some (toNat_thousand positive (fits positive)).symm, rfl⟩
      · rename_i refused
        exact iff_of_true exact_invalid fun positive => absurd positive refused
  | double bits =>
      simp only [withSeconds, SecondsFit]
      split
      · rename_i positive
        refine (exact_unsigned (Ieee.ceilScaled 52 1000 bits) assign).trans ?_
        simp [positive]
      · rename_i refused
        exact iff_of_true exact_invalid fun positive => absurd positive refused
  | _ => exact iff_of_true exact_invalid trivial

theorem exact_heartbeat (name expected : String)
    (assign : UInt32 → ClusterBuilder → ClusterBuilder) (time : PhpArgument) :
    (withHeartbeat name expected assign time).Exact before
        (fun after => UnsignedAssigned after (timeOf 1 time) fun field => assign field before) ↔
      HeartbeatFits time := by
  cases time with
  | long seconds =>
      simp only [withHeartbeat, HeartbeatFits]
      split
      · rename_i least
        rw [exact_store]
        constructor
        · rintro ⟨field, same, _⟩ _
          have bound := toNat_lt field
          simp only [timeOf, Option.some.injEq] at same
          omega
        · intro fits
          refine ⟨_, ?_, rfl⟩
          rw [toNat_narrow least (fits least)]
          simp [timeOf]
      · rename_i refused
        exact iff_of_true exact_invalid fun least => absurd least refused
  | double bits =>
      simp only [withHeartbeat, HeartbeatFits]
      split
      · rename_i least
        refine (exact_unsigned (Ieee.ceilScaled 52 1 bits) assign).trans ?_
        simp [least]
      · rename_i refused
        exact iff_of_true exact_invalid fun least => absurd least refused
  | _ => exact iff_of_true exact_invalid trivial

theorem exact_integer (name expected : String) (holds : Int → Bool)
    (assign : Int32 → ClusterBuilder → ClusterBuilder) (argument : PhpArgument) :
    (withInteger name expected holds assign argument).Exact before
        (fun after => IntegerAssigned after argument fun field => assign field before) ↔
      ∀ number : BitVec 64, argument = .long number → holds number.toInt →
        -2 ^ 31 ≤ number.toInt ∧ number.toInt < 2 ^ 31 := by
  cases argument with
  | long number =>
      simp only [withInteger]
      split
      · rename_i accepted
        rw [exact_store]
        constructor
        · rintro ⟨_, field, given, same, _⟩ _ equal _
          cases given
          cases equal
          rw [← same]
          exact ⟨field.le_toInt, field.toInt_lt⟩
        · intro fits
          obtain ⟨least, bound⟩ := fits number rfl accepted
          exact ⟨number, _, rfl, toInt_narrow least bound, rfl⟩
      · rename_i refused
        refine iff_of_true exact_invalid ?_
        intro other equal accepted
        cases equal
        exact absurd accepted refused
  | _ => exact iff_of_true exact_invalid (by simp)

end Setting

open Setting

variable {parsing : ParameterParsing} {before : ClusterBuilder}

theorem getConsistency_ok {consistency : PhpArgument} {level : Int}
    (accepted : getConsistency { value := consistency } = .ok level) :
    ∃ given : BitVec 64, consistency = .long given ∧ given.toInt = level := by
  cases consistency with
  | long given =>
      have read : (if given.toInt ∈ consistencies then .ok given.toInt
          else .error (.invalid "consistency" "one of Cassandra::CONSISTENCY_*")) =
            (.ok level : Except OptionsFailure Int) := accepted
      split at read
      · exact ⟨given, rfl, Except.ok.inj read⟩
      · cases read
  | _ => cases accepted

theorem exact_defaultConsistency (arguments : List PhpArgument) :
    (withDefaultConsistency arguments).Exact before fun after =>
      ∃ level : BitVec 64, arguments = [.long level] ∧
        after = { before with defaultConsistency := level.toInt } := by
  match arguments with
  | [] => exact exact_throw
  | [consistency] =>
      simp only [withDefaultConsistency, withValue]
      split
      · rename_i level accepted
        obtain ⟨given, rfl, same⟩ := getConsistency_ok accepted
        exact exact_store.mpr ⟨given, rfl, by rw [same]⟩
      · exact exact_invalid
  | _ :: _ :: _ => exact exact_throw

theorem exact_defaultTimeout (arguments : List PhpArgument) :
    (withDefaultTimeout arguments).Exact before fun after =>
      (arguments = [.null] ∧ after = { before with defaultTimeout := none }) ∨
      (∃ seconds : BitVec 64, arguments = [.long seconds] ∧
        after = { before with defaultTimeout := some (.long seconds.toInt) }) ∨
      ∃ bits, arguments = [.double bits] ∧
        after = { before with defaultTimeout := some (.double (UInt64.ofBitVec bits)) } := by
  match arguments with
  | [] => exact exact_throw
  | [timeout] =>
      cases timeout with
      | null => exact exact_store.mpr (.inl ⟨rfl, rfl⟩)
      | long seconds =>
          simp only [withDefaultTimeout, withValue]
          split
          · exact exact_store.mpr (.inr (.inl ⟨seconds, rfl, rfl⟩))
          · exact exact_invalid
      | double bits =>
          simp only [withDefaultTimeout, withValue]
          split
          · exact exact_store.mpr (.inr (.inr ⟨bits, rfl, rfl⟩))
          · exact exact_invalid
      | _ => exact exact_invalid
  | _ :: _ :: _ => exact exact_throw

/-- A null has a meaning of its own, and other arguments are read as before. -/
theorem exact_nullable {read : PhpArgument → Setting} {null : ClusterBuilder → ClusterBuilder}
    {arguments : List PhpArgument} {assigned : PhpArgument → ClusterBuilder → Prop}
    (nothing : (read .null).Exact before (assigned .null)) :
    (withValue (fun argument =>
        match argument with
        | .null => .store null
        | _ => read argument) arguments).Exact before
        (fun after => (arguments = [.null] ∧ after = null before) ∨
          ∃ argument, arguments = [argument] ∧ assigned argument after) ↔
      ∀ argument, arguments = [argument] → (read argument).Exact before (assigned argument) := by
  match arguments with
  | [] => exact iff_of_true exact_throw (by simp)
  | [argument] =>
      cases argument with
      | null =>
          refine iff_of_true (exact_store.mpr (.inl ⟨rfl, rfl⟩)) ?_
          intro argument same
          cases same
          exact nothing
      | _ => simp [withValue]
  | _ :: _ :: _ => exact iff_of_true exact_throw (by simp)

theorem exact_datacenterAware (arguments : List PhpArgument) :
    (withDatacenterAwareRoundRobinLoadBalancingPolicy parsing arguments).Exact before
        (fun after => ∃ localDc hosts allowed dc allow,
          arguments = [localDc, .long hosts, allowed] ∧
            parsing.string localDc = some dc ∧ parsing.bool allowed = some allow ∧
            UnsignedAssigned after (some hosts.toInt) fun field => { before with
              loadBalancingPolicy := .dcAwareRoundRobin
              localDc := some dc
              usedHostsPerRemoteDc := field
              allowRemoteDcsForLocalCl := allow
              localized := localized_some dc }) ↔
      ∀ localDc hosts allowed, arguments = [localDc, .long hosts, allowed] →
        (parsing.string localDc).isSome → (parsing.bool allowed).isSome →
          hosts.toInt < 2 ^ 32 := by
  unfold withDatacenterAwareRoundRobinLoadBalancingPolicy
  split
  · rename_i localDc hostPerRemoteDatacenter allowed
    split
    · rename_i dc allow dcGiven allowGiven
      split
      · rename_i hosts
        split
        · rename_i negative
          refine iff_of_true exact_invalid ?_
          intro _ _ _ same _ _
          cases same
          omega
        · rename_i least
          rw [exact_store]
          constructor
          · rintro ⟨_, _, _, _, _, same, _, _, field, number, _⟩ _ _ _ equal _ _
            cases same
            cases equal
            have bound := toNat_lt field
            simp only [Option.some.injEq] at number
            omega
          · intro fits
            have bound := fits localDc hosts allowed rfl (by simp [dcGiven]) (by simp [allowGiven])
            exact ⟨localDc, hosts, allowed, dc, allow, rfl, dcGiven, allowGiven, _,
              congrArg some (toNat_narrow (by omega) bound).symm, rfl⟩
      · rename_i other
        refine iff_of_true exact_invalid ?_
        intro _ hosts _ same
        cases same
        exact absurd rfl (other hosts)
    · rename_i unparsed
      refine iff_of_true exact_throw ?_
      intro _ _ _ same dcGiven allowGiven
      cases same
      obtain ⟨dc, dcGiven⟩ := Option.isSome_iff_exists.mp dcGiven
      obtain ⟨allow, allowGiven⟩ := Option.isSome_iff_exists.mp allowGiven
      exact absurd allowGiven (unparsed dc allow dcGiven)
  · rename_i other
    refine iff_of_true exact_throw ?_
    intro localDc hosts allowed same
    exact absurd same (other _ _ _)

theorem exact_credentials (arguments : List PhpArgument) :
    (withCredentials arguments).Exact before fun after =>
      ∃ username password, arguments = [.string username, .string password] ∧
        after = { before with
          username := some username
          password := some password
          credentialed := credentialed_some username password } := by
  unfold withCredentials
  split
  · exact exact_store.mpr ⟨_, _, rfl, rfl⟩
  · exact exact_invalid
  · exact exact_invalid
  · exact exact_throw

theorem exact_times {read : PhpArgument → Setting} {arguments : List PhpArgument}
    {assigned : PhpArgument → ClusterBuilder → Prop} {fits : PhpArgument → Prop}
    (each : ∀ time, (read time).Exact before (assigned time) ↔ fits time) :
    (withValue read arguments).Exact before
        (fun after => ∃ time, arguments = [time] ∧ assigned time after) ↔
      ∀ time, arguments = [time] → fits time :=
  (exact_value read arguments assigned).trans
    (forall_congr' fun time => imp_congr_right fun _ => each time)

/-- A number that passes its check fits, unless the check says nothing about it. -/
theorem exact_bounded {name expected : String} {holds : Int → Bool}
    {assign : Int32 → ClusterBuilder → ClusterBuilder} {arguments : List PhpArgument}
    (bounded : ∀ number : Int, holds number → -2 ^ 31 ≤ number ∧ number < 2 ^ 31) :
    (withValue (withInteger name expected holds assign) arguments).Exact before
      fun after => ∃ argument, arguments = [argument] ∧
        IntegerAssigned after argument fun field => assign field before :=
  (exact_value _ _ fun argument after => IntegerAssigned after argument fun field =>
    assign field before).mpr fun argument _ =>
      (exact_integer name expected holds assign argument).mpr fun number _ => bounded number.toInt

theorem exact_positive {name expected : String} {holds : Int → Bool}
    {assign : Int32 → ClusterBuilder → ClusterBuilder} (argument : PhpArgument)
    (positive : ∀ number : Int, holds number ↔ 1 ≤ number) :
    (withInteger name expected holds assign argument).Exact before
        (fun after => IntegerAssigned after argument fun field => assign field before) ↔
      ∀ size : BitVec 64, argument = .long size → size.toInt < 2 ^ 31 := by
  rw [exact_integer]
  apply forall_congr'
  intro number
  apply imp_congr_right
  intro _
  rw [positive]
  omega

theorem exact_requestTimeout (timeout : PhpArgument) :
    (match parsing.double timeout with
      | some bits =>
          unsignedOf (Ieee.ceilScaled 52 1000 bits)
            fun timeout self => { self with requestTimeout := timeout }
      | none => .throw .parameters : Setting).Exact before
        (fun after => UnsignedAssigned after
          ((parsing.double timeout).bind (Ieee.ceilScaled 52 1000)) fun field =>
            { before with requestTimeout := field }) ↔
      ((parsing.double timeout).isSome →
        FitsUnsigned ((parsing.double timeout).bind (Ieee.ceilScaled 52 1000))) := by
  cases parsing.double timeout with
  | none => exact iff_of_true exact_throw (by simp)
  | some bits =>
      refine (exact_unsigned (Ieee.ceilScaled 52 1000 bits) _).trans ?_
      simp

theorem exact_single {read : PhpArgument → Setting} {arguments : List PhpArgument}
    {assigned : ClusterBuilder → Prop}
    (each : ∀ argument, arguments = [argument] → (read argument).Exact before assigned) :
    (withValue read arguments).Exact before assigned := by
  match arguments with
  | [] => exact exact_throw
  | [argument] => exact each argument rfl
  | _ :: _ :: _ => exact exact_throw

theorem forall_long {arguments : List PhpArgument} {fits : BitVec 64 → Prop} :
    (∀ argument, arguments = [argument] → ∀ number, argument = .long number → fits number) ↔
      ∀ number, arguments = [.long number] → fits number := by
  constructor
  · intro all number given
    exact all _ given number rfl
  · rintro all _ given number rfl
    exact all number given

theorem setting_exact_iff (call : SetterCall) (other : call.setter ≠ .withConnectionsPerHost) :
    (call.setting parsing).Exact before (call.Assigns parsing before) ↔
      call.Sound parsing before := by
  obtain ⟨setter, arguments⟩ := call
  cases setter with
  | withDefaultConsistency => exact iff_of_true (exact_defaultConsistency arguments) trivial
  | withDefaultPageSize =>
      refine (exact_nullable exact_invalid).trans ?_
      refine (forall_congr' fun argument => imp_congr_right fun _ =>
        exact_positive argument fun number => ?_).trans forall_long
      simp [Int.lt_iff_add_one_le]
  | withDefaultTimeout => exact iff_of_true (exact_defaultTimeout arguments) trivial
  | withContactPoints =>
      apply iff_of_true _ trivial
      simp only [SetterCall.setting, withContactPoints]
      apply exact_strings
  | withPort =>
      refine iff_of_true (exact_bounded ?_) trivial
      intro number holds
      simp only [decide_eq_true_eq] at holds
      omega
  | withRoundRobinLoadBalancingPolicy =>
      refine iff_of_true ?_ trivial
      cases arguments with
      | nil => exact exact_store.mpr ⟨rfl, rfl⟩
      | cons _ _ => exact exact_throw
  | withDatacenterAwareRoundRobinLoadBalancingPolicy => exact exact_datacenterAware arguments
  | withBlackListHosts =>
      apply iff_of_true _ trivial
      simp only [SetterCall.setting, withBlackListHosts]
      apply exact_strings
  | withWhiteListHosts =>
      apply iff_of_true _ trivial
      simp only [SetterCall.setting, withWhiteListHosts]
      apply exact_strings
  | withBlackListDCs =>
      apply iff_of_true _ trivial
      simp only [SetterCall.setting, withBlackListDCs]
      apply exact_strings
  | withWhiteListDCs =>
      apply iff_of_true _ trivial
      simp only [SetterCall.setting, withWhiteListDCs]
      apply exact_strings
  | withTokenAwareRouting =>
      apply iff_of_true _ trivial
      simp only [SetterCall.setting, withTokenAwareRouting]
      apply exact_flag
  | withCredentials => exact iff_of_true (exact_credentials arguments) trivial
  | withConnectTimeout => exact exact_times (exact_seconds _ _ _)
  | withRequestTimeout => exact exact_times exact_requestTimeout
  | withSSL =>
      refine iff_of_true (exact_single fun argument given => ?_) trivial
      split
      · exact exact_store.mpr ⟨_, given, rfl⟩
      · exact exact_throw
  | withPersistentSessions =>
      apply iff_of_true _ trivial
      simp only [SetterCall.setting, withPersistentSessions]
      apply exact_flag
  | withProtocolVersion =>
      refine (exact_value _ _ _).trans ?_
      refine (forall_congr' fun argument => imp_congr_right fun _ =>
        exact_positive argument fun number => ?_).trans forall_long
      simp
  | withIOThreads =>
      refine iff_of_true (exact_bounded ?_) trivial
      intro number holds
      simp only [decide_eq_true_eq] at holds
      omega
  | withConnectionsPerHost => exact absurd rfl other
  | withReconnectInterval => exact exact_times (exact_seconds _ _ _)
  | withLatencyAwareRouting =>
      apply iff_of_true _ trivial
      simp only [SetterCall.setting, withLatencyAwareRouting]
      apply exact_flag
  | withTCPNodelay =>
      apply iff_of_true _ trivial
      simp only [SetterCall.setting, withTCPNodelay]
      apply exact_flag
  | withTCPKeepalive =>
      refine (exact_nullable exact_invalid).trans ?_
      exact forall_congr' fun time => imp_congr_right fun _ => exact_seconds _ _ _ time
  | withRetryPolicy =>
      refine iff_of_true (exact_single fun argument given => ?_) trivial
      split
      · exact exact_store.mpr ⟨_, given, rfl⟩
      · exact exact_throw
  | withTimestampGenerator =>
      refine iff_of_true (exact_single fun argument given => ?_) trivial
      split
      · exact exact_store.mpr ⟨_, given, rfl⟩
      · exact exact_throw
  | withSchemaMetadata =>
      apply iff_of_true _ trivial
      simp only [SetterCall.setting, withSchemaMetadata]
      apply exact_flag
  | withHostnameResolution =>
      apply iff_of_true _ trivial
      simp only [SetterCall.setting, withHostnameResolution]
      apply exact_flag
  | withRandomizedContactPoints =>
      apply iff_of_true _ trivial
      simp only [SetterCall.setting, withRandomizedContactPoints]
      apply exact_flag
  | withConnectionHeartbeatInterval => exact exact_times (exact_heartbeat _ _ _)

/-! `withConnectionsPerHost`. -/

theorem maxConnections_ok {core max : BitVec 64} {argument : Option PhpArgument}
    (accepted : maxConnections core argument = .ok max) :
    maxOf core argument.toList = some max ∧ core.toInt ≤ max.toInt ∧
      (core.toInt ≤ 128 → max.toInt ≤ 128) := by
  match argument with
  | none | some .null =>
      cases accepted
      exact ⟨rfl, le_refl _, id⟩
  | some (.long given) =>
      simp only [maxConnections] at accepted
      split at accepted
      · cases accepted
      · split at accepted
        · cases accepted
        · cases accepted
          exact ⟨rfl, by omega, by omega⟩
  | some (.bool _) | some (.double _) | some (.string _) | some (.array _) | some (.object _) =>
      cases accepted

theorem withConnectionsPerHost_cases (self : ClusterBuilder) (core : PhpArgument)
    (max : Option PhpArgument) :
    (∃ given maximum : BitVec 64, core = .long given ∧ 1 ≤ given.toInt ∧ given.toInt ≤ 128 ∧
      maxConnections given max = .ok maximum ∧
      withConnectionsPerHost self core max = some ({ self with
        coreConnectionsPerHost := Int32.ofBitVec (given.setWidth 32)
        maxConnectionsPerHost := Int32.ofBitVec (maximum.setWidth 32) }, .ok ())) ∨
    (∃ (given : BitVec 64) (error : SetterError), core = .long given ∧ 1 ≤ given.toInt ∧
      given.toInt ≤ 128 ∧ maxConnections given max = .error error ∧
      withConnectionsPerHost self core max = some ({ self with
        coreConnectionsPerHost := Int32.ofBitVec (given.setWidth 32) }, .error error)) ∨
    (∀ given : BitVec 64, core = .long given → ¬(1 ≤ given.toInt ∧ given.toInt ≤ 128)) ∧
      ∃ error, withConnectionsPerHost self core max = some (self, .error error) := by
  cases core with
  | long given =>
      simp only [withConnectionsPerHost]
      split
      · rename_i accepted
        cases maximum : maxConnections given max with
        | ok value => exact .inl ⟨given, value, rfl, by omega, by omega, maximum, rfl⟩
        | error error => exact .inr (.inl ⟨given, error, rfl, by omega, by omega, maximum, rfl⟩)
      · rename_i refused
        refine .inr (.inr ⟨?_, _, rfl⟩)
        intro other same
        cases same
        omega
  | _ => exact .inr (.inr ⟨by simp, _, rfl⟩)

theorem coreField {core : BitVec 64} (least : 1 ≤ core.toInt) (most : core.toInt ≤ 128) :
    (Int32.ofBitVec (core.setWidth 32)).toInt = core.toInt :=
  toInt_narrow (by omega) (by omega)

theorem connections_atomic_iff (core : PhpArgument) (max : Option PhpArgument) :
    SetterCall.Atomic parsing before ⟨.withConnectionsPerHost, core :: max.toList⟩ ↔
      SetterCall.Sound parsing before ⟨.withConnectionsPerHost, core :: max.toList⟩ := by
  have run : SetterCall.run parsing before ⟨.withConnectionsPerHost, core :: max.toList⟩ =
      withConnectionsPerHost before core max := by
    cases max <;> rfl
  rcases withConnectionsPerHost_cases before core max with
    ⟨given, maximum, rfl, least, most, accepted, called⟩ |
    ⟨given, error, rfl, least, most, refused, called⟩ | ⟨ill, error, called⟩
  · obtain ⟨maximum_, ordered, bounded⟩ := maxConnections_ok accepted
    apply iff_of_true
    · refine ⟨by simp [run, called], ?_, ?_⟩
      · intro after other threw
        rw [run, called] at threw
        cases threw
      · intro after returned
        rw [run, called] at returned
        cases returned
        exact ⟨given, maximum, max.toList, _, _, rfl, maximum_, coreField least most,
          coreField (by omega) (bounded most), rfl⟩
    · intro other argument same _ _ refused
      cases max with
      | none => cases same
      | some argument =>
          cases same
          obtain ⟨error, refused⟩ := refused
          rw [accepted] at refused
          cases refused
  · constructor
    · intro atomic other argument same _ _ _
      have unchanged := atomic.thrown _ error (run.trans called)
      have stored : Int32.ofBitVec (given.setWidth 32) = before.coreConnectionsPerHost :=
        congrArg ClusterBuilder.coreConnectionsPerHost unchanged
      cases max with
      | none => cases same
      | some argument =>
          cases same
          rw [← stored]
          exact coreField least most
    · intro sound
      have same : before.coreConnectionsPerHost.toInt = given.toInt := by
        cases max with
        | none => cases refused
        | some argument => exact sound given argument rfl least most ⟨error, refused⟩
      have stored : Int32.ofBitVec (given.setWidth 32) = before.coreConnectionsPerHost := by
        apply Int32.toInt_inj.mp
        rw [coreField least most, same]
      refine ⟨by simp [run, called], ?_, ?_⟩
      · intro after other threw
        rw [run, called, stored] at threw
        cases threw
        rfl
      · intro after returned
        rw [run, called] at returned
        cases returned
  · apply iff_of_true
    · refine ⟨by simp [run, called], ?_, ?_⟩
      · intro after other threw
        rw [run, called] at threw
        cases threw
        rfl
      · intro after returned
        rw [run, called] at returned
        cases returned
    · intro given argument same least most _
      cases max with
      | none => cases same
      | some argument =>
          cases same
          exact absurd ⟨least, most⟩ (ill given rfl)

theorem atomic_iff_exact {call : SetterCall}
    (run : call.run parsing before = (call.setting parsing).apply before) :
    call.Atomic parsing before ↔
      (call.setting parsing).Exact before (call.Assigns parsing before) := by
  constructor
  · intro atomic
    constructor
    · intro undefined
      exact atomic.defined (by rw [run, undefined]; rfl)
    · intro assign stored
      exact atomic.returned _ (by rw [run, stored]; rfl)
  · intro exact
    cases setting : call.setting parsing with
    | store assign =>
        rw [setting] at run
        refine ⟨by simp [run, apply], ?_, ?_⟩
        · intro after error threw
          rw [run] at threw
          cases threw
        · intro after returned
          rw [run] at returned
          cases returned
          exact exact.stored assign setting
    | throw error =>
        rw [setting] at run
        refine ⟨by simp [run, apply], ?_, ?_⟩
        · intro after other threw
          rw [run] at threw
          cases threw
          rfl
        · intro after returned
          rw [run] at returned
          cases returned
    | undefined => exact absurd setting exact.defined

theorem atomic_iff (call : SetterCall) :
    call.Atomic parsing before ↔ call.Sound parsing before := by
  obtain ⟨setter, arguments⟩ := call
  by_cases connections : setter = .withConnectionsPerHost
  · subst connections
    match arguments with
    | [core] => exact connections_atomic_iff core none
    | [core, max] => exact connections_atomic_iff core (some max)
    | [] | _ :: _ :: _ :: _ =>
        refine (atomic_iff_exact rfl).trans (iff_of_true exact_throw ?_)
        intro _ _ same
        cases same
  · refine (atomic_iff_exact ?_).trans (setting_exact_iff _ connections)
    cases setter with
    | withConnectionsPerHost => exact absurd rfl connections
    | _ => rfl

theorem integer_stored {name expected : String} {holds : Int → Bool}
    {assign : Int32 → ClusterBuilder → ClusterBuilder} {arguments : List PhpArgument}
    {after : ClusterBuilder}
    (bounded : ∀ number : Int, holds number → -2 ^ 31 ≤ number ∧ number < 2 ^ 31)
    (called : (withValue (withInteger name expected holds assign) arguments).apply before =
      some (after, .ok ())) :
    ∃ field : Int32, holds field.toInt ∧ after = assign field before := by
  match arguments with
  | [.long number] =>
      simp only [withValue, withInteger] at called
      split at called
      · rename_i accepted
        cases called
        obtain ⟨least, bound⟩ := bounded _ accepted
        exact ⟨_, by rw [toInt_narrow least bound]; exact accepted, rfl⟩
      · cases called
  | [.null] | [.bool _] | [.double _] | [.string _] | [.array _] | [.object _] => cases called
  | [] | _ :: _ :: _ => cases called

theorem valid_port {arguments : List PhpArgument} {after : ClusterBuilder} (valid : before.Valid)
    (called : (withPort arguments).apply before = some (after, .ok ())) : after.Valid := by
  obtain ⟨port, holds, rfl⟩ := integer_stored (by
    intro number holds
    simp only [decide_eq_true_eq] at holds
    omega) called
  simp only [decide_eq_true_eq] at holds
  exact { valid with ported := ⟨by dsimp only; omega, by dsimp only; omega⟩ }

theorem valid_ioThreads {arguments : List PhpArgument} {after : ClusterBuilder}
    (valid : before.Valid) (called : (withIOThreads arguments).apply before =
      some (after, .ok ())) : after.Valid := by
  obtain ⟨count, holds, rfl⟩ := integer_stored (by
    intro number holds
    simp only [decide_eq_true_eq] at holds
    omega) called
  simp only [decide_eq_true_eq] at holds
  exact { valid with threaded := ⟨by dsimp only; omega, by dsimp only; omega⟩ }

theorem valid_connections {core : PhpArgument} {max : Option PhpArgument} {after : ClusterBuilder}
    (valid : before.Valid)
    (called : withConnectionsPerHost before core max = some (after, .ok ())) : after.Valid := by
  rcases withConnectionsPerHost_cases before core max with
    ⟨given, maximum, rfl, least, most, accepted, stored⟩ |
    ⟨given, error, rfl, least, most, refused, threw⟩ | ⟨_, error, threw⟩
  · rw [stored] at called
    cases called
    obtain ⟨_, ordered, bounded⟩ := maxConnections_ok accepted
    have maxField : (Int32.ofBitVec (maximum.setWidth 32)).toInt = maximum.toInt :=
      coreField (by omega) (bounded most)
    refine { valid with positive := ?_, ordered := ?_, bounded := ?_ }
    · rw [coreField least most]
      exact least
    · rw [coreField least most, maxField]
      exact ordered
    · rw [maxField]
      exact bounded most
  · rw [threw] at called
    cases called
  · rw [threw] at called
    cases called

theorem valid_assigned {call : SetterCall} {after : ClusterBuilder} (valid : before.Valid)
    (assigned : call.Assigns parsing before after) (called : call.run parsing before =
      some (after, .ok ())) : after.Valid := by
  obtain ⟨setter, arguments⟩ := call
  cases setter with
  | withPort => exact valid_port valid called
  | withIOThreads => exact valid_ioThreads valid called
  | withConnectionsPerHost =>
      match arguments with
      | [core] =>
          have connections : withConnectionsPerHost before core none = some (after, .ok ()) := called
          exact valid_connections valid connections
      | [core, max] =>
          have connections : withConnectionsPerHost before core (some max) =
            some (after, .ok ()) := called
          exact valid_connections valid connections
      | [] | _ :: _ :: _ :: _ => cases called
  | withDefaultConsistency | withSSL | withRetryPolicy | withTimestampGenerator =>
      obtain ⟨_, _, rfl⟩ := assigned
      exact valid
  | withDefaultPageSize =>
      obtain ⟨_, rfl⟩ | ⟨_, _, _, _, _, _, rfl⟩ := assigned <;> exact valid
  | withDefaultTimeout =>
      obtain ⟨_, rfl⟩ | ⟨_, _, rfl⟩ | ⟨_, _, rfl⟩ := assigned <;> exact valid
  | withRoundRobinLoadBalancingPolicy =>
      obtain ⟨_, rfl⟩ := assigned
      exact valid
  | withDatacenterAwareRoundRobinLoadBalancingPolicy =>
      obtain ⟨_, _, _, _, _, _, _, _, _, _, rfl⟩ := assigned
      exact valid
  | withContactPoints | withBlackListHosts | withWhiteListHosts | withBlackListDCs
  | withWhiteListDCs | withTokenAwareRouting | withPersistentSessions | withLatencyAwareRouting
  | withTCPNodelay | withSchemaMetadata | withHostnameResolution | withRandomizedContactPoints =>
      obtain ⟨_, _, rfl⟩ := assigned
      exact valid
  | withCredentials =>
      obtain ⟨_, _, _, rfl⟩ := assigned
      exact valid
  | withConnectTimeout | withRequestTimeout | withReconnectInterval
  | withConnectionHeartbeatInterval =>
      obtain ⟨_, _, _, _, rfl⟩ := assigned
      exact valid
  | withProtocolVersion =>
      obtain ⟨_, _, _, _, _, _, rfl⟩ := assigned
      exact valid
  | withTCPKeepalive =>
      obtain ⟨_, rfl⟩ | ⟨_, _, _, _, rfl⟩ := assigned <;> exact valid

theorem valid_default : ({} : ClusterBuilder).Valid :=
  ⟨by decide, by decide, by decide, by decide, by decide⟩

def builderCall (parsing : ParameterParsing) (self : ClusterBuilder) (call : SetterCall) :
    Option ClusterBuilder :=
  (call.run parsing self).map Prod.fst

theorem valid_call {call : SetterCall} {after : ClusterBuilder} (valid : before.Valid)
    (sound : call.Sound parsing before) (called : builderCall parsing before call = some after) :
    after.Valid := by
  have atomic := (atomic_iff call).mpr sound
  obtain ⟨⟨next, answer⟩, called, same⟩ := Option.map_eq_some_iff.mp called
  obtain rfl : next = after := same
  cases answer with
  | error error =>
      rw [atomic.thrown next error called]
      exact valid
  | ok _ => exact valid_assigned valid (atomic.returned next called) called

/-- Parameters without conversions. -/
def strictParsing : ParameterParsing where
  string := PhpArgument.bytes
  bool
    | .bool value => some value
    | _ => none
  double
    | .double bits => some bits
    | _ => none

/-- A maximum that is refused after its core is stored, and a timeout of fifty days. -/
theorem setters_not_atomic :
    ¬SetterCall.Atomic strictParsing {} ⟨.withConnectionsPerHost, [.long 100, .long 1]⟩ ∧
    (∃ after, builderCall strictParsing {} ⟨.withConnectionsPerHost, [.long 100, .long 1]⟩ =
      some after ∧ ¬after.Valid) ∧
    ¬SetterCall.Atomic strictParsing {} ⟨.withConnectTimeout, [.long 4320000]⟩ := by
  refine ⟨?_, ⟨_, rfl, ?_⟩, ?_⟩
  · intro atomic
    have unchanged := atomic.thrown _ _ rfl
    exact absurd (congrArg ClusterBuilder.coreConnectionsPerHost unchanged) (by decide)
  · intro valid
    exact absurd valid.ordered (by decide)
  · intro atomic
    obtain ⟨_, given, field, same, _⟩ := atomic.returned _ rfl
    cases given
    have bound := toNat_lt field
    simp only [timeOf, Option.some.injEq] at same
    have seconds : (4320000 : BitVec 64).toInt = 4320000 := by decide
    omega

/-- Along sound calls the builder stays valid, and every further call is atomic exactly when it
is sound. -/
theorem builder_calls_are_atomic {parsing : ParameterParsing} {calls : List SetterCall}
    {state : ClusterBuilder}
    (run : Run (builderCall parsing) (fun state call => call.Sound parsing state) {} calls state) :
    state.Valid ∧ ∀ call : SetterCall,
      call.Atomic parsing state ↔ call.Sound parsing state :=
  ⟨run.invariant (fun _ _ _ valid sound called => valid_call valid sound called) valid_default,
    fun call => atomic_iff call⟩

/-- Connections, a port that is refused, and a timeout. -/
theorem sound_calls_are_atomic :
    ∃ state : ClusterBuilder, Run (builderCall strictParsing)
        (fun state call => call.Sound strictParsing state) {}
        [⟨.withConnectionsPerHost, [.long 2, .long 4]⟩, ⟨.withPort, [.long 0]⟩,
          ⟨.withConnectTimeout, [.long 10]⟩] state ∧
      state.Valid ∧ ∀ call : SetterCall,
        call.Atomic strictParsing state ↔ call.Sound strictParsing state := by
  have run : ∃ state : ClusterBuilder, Run (builderCall strictParsing)
      (fun state call => call.Sound strictParsing state) {}
      [⟨.withConnectionsPerHost, [.long 2, .long 4]⟩, ⟨.withPort, [.long 0]⟩,
        ⟨.withConnectTimeout, [.long 10]⟩] state := by
    refine ⟨_, .cons ?_ rfl (.cons trivial rfl (.cons ?_ rfl (.nil _)))⟩
    · intro core max same _ _ refused
      cases same
      obtain ⟨error, refused⟩ := refused
      cases refused
    · intro time same
      cases same
      intro _
      decide
  obtain ⟨state, run⟩ := run
  exact ⟨state, run, builder_calls_are_atomic run⟩

end PhpDriver
