import PhpDriver.Cluster.Builder

namespace PhpDriver

open Data Data.Joined

/-! When the key of a cluster or of a session stands for one configuration only. -/

theorem mem_printed {n : Int32} {char : UInt8} (member : char ∈ printed n) :
    char = '-'.toUInt8 ∨ DecimalText.isDigit char = true := by
  rw [printed, DecimalText.ofInt, List.mem_append] at member
  rcases member with sign | digit
  · rw [DecimalText.sign] at sign
    split at sign
    · exact Or.inl (List.mem_singleton.mp sign)
    · cases sign
  · exact Or.inr (DecimalText.allDigits_ofNat _ char digit)

theorem keySeparator_notMem_printed (n : Int32) : keySeparator ∉ printed n := by
  intro member
  exact absurd (mem_printed member) (by decide)

theorem zero_notMem_printed (n : Int32) : 0 ∉ printed n := by
  intro member
  exact absurd (mem_printed member) (by decide)

@[simp] theorem splitOn_printed (n : Int32) :
    (printed n).splitOn keySeparator = [printed n] :=
  List.splitOn_eq_singleton (keySeparator_notMem_printed n)

@[simp] theorem printed_inj {n m : Int32} : printed n = printed m ↔ n = m := by
  constructor
  · intro same
    exact Int32.toInt_inj.mp (DecimalText.ofInt_inj.mp same)
  · intro same
    rw [same]

@[simp] theorem toInt32_eq_iff {n m : UInt32} : n.toInt32 = m.toInt32 ↔ n = m := by
  constructor
  · intro same
    rw [← UInt32.toUInt32_toInt32 n, same, UInt32.toUInt32_toInt32]
  · intro same
    rw [same]

@[simp] theorem flag_inj {on other : Bool} : flag on = flag other ↔ on = other := by
  cases on <;> cases other <;> decide

@[simp] theorem LoadBalancing.code_inj {policy other : LoadBalancing} :
    policy.code = other.code ↔ policy = other := by
  cases policy <;> cases other <;> decide

theorem map_cString_eq_iff {text other : Option (List UInt8)} :
    text.map cString = other.map cString ↔
      safeStr text = safeStr other ∧ text.isSome = other.isSome := by
  cases text <;> cases other <;> simp [safeStr]

namespace ClusterBuilder

def keyPieces (self : ClusterBuilder) : List (List UInt8) :=
  pieces keySeparator (driverName :: self.keyed)

theorem zero_notMem_keyed {self : ClusterBuilder} :
    ∀ text ∈ self.keyed, 0 ∉ text := by
  simp [keyed, zero_notMem_printed, safeStr, zero_notMem_cString]

@[simp] theorem cString_hashKey (self : ClusterBuilder) : cString self.hashKey = self.hashKey := by
  rw [cString_eq_self_iff]
  intro zero
  obtain separator | ⟨text, member, zero⟩ := mem_joined zero
  · exact absurd separator (by decide)
  · rcases List.mem_cons.mp member with rfl | member
    · exact absurd zero (by decide)
    · exact zero_notMem_keyed text member zero

theorem hashKey_eq_iff {a b : ClusterBuilder} :
    a.hashKey = b.hashKey ↔ a.keyPieces = b.keyPieces :=
  joined_eq_iff (List.cons_ne_nil _ _) (List.cons_ne_nil _ _)

theorem splitOn_hashKey (self : ClusterBuilder) :
    self.hashKey.splitOn keySeparator = self.keyPieces :=
  splitOn_joined (List.cons_ne_nil _ _)

end ClusterBuilder

def keyspacePieces (keyspace : Option (List UInt8)) : List (List UInt8) :=
  (safeStr keyspace).splitOn keySeparator

theorem splitOn_sessionKey (self : ClusterBuilder) (keyspace : Option (List UInt8)) :
    (sessionKey self.hashKey keyspace).splitOn keySeparator =
      self.keyPieces ++ sessionWord :: keyspacePieces keyspace := by
  have word : sessionWord.splitOn keySeparator = [sessionWord] :=
    List.splitOn_eq_singleton (by decide)
  rw [sessionKey, splitOn_joined (List.cons_ne_nil _ _)]
  simp [word, self.splitOn_hashKey, keyspacePieces]

structure SameStrings (a b : ClusterBuilder) : Prop where
  contactPoints : safeStr (some a.contactPoints) = safeStr (some b.contactPoints)
  localDc : safeStr a.localDc = safeStr b.localDc
  username : safeStr a.username = safeStr b.username
  password : safeStr a.password = safeStr b.password
  whitelistHosts : safeStr a.whitelistHosts = safeStr b.whitelistHosts
  whitelistDcs : safeStr a.whitelistDcs = safeStr b.whitelistDcs
  blacklistHosts : safeStr a.blacklistHosts = safeStr b.blacklistHosts
  blacklistDcs : safeStr a.blacklistDcs = safeStr b.blacklistDcs

variable {a b : ClusterBuilder}

theorem SameStrings.keyed_eq (strings : SameStrings a b) (same : a.keyPieces = b.keyPieces) :
    a.keyed = b.keyed := by
  have aligned : List.Forall₂ (fun text other =>
      (text.splitOn keySeparator).length = (other.splitOn keySeparator).length)
      (driverName :: a.keyed) (driverName :: b.keyed) := by
    simp [ClusterBuilder.keyed, strings.contactPoints, strings.localDc, strings.username,
      strings.password, strings.whitelistHosts, strings.whitelistDcs, strings.blacklistHosts,
      strings.blacklistDcs]
  exact List.tail_eq_of_cons_eq (eq_of_pieces_eq aligned same)

/-- What is set without being in the key. -/
structure LeftOut where
  hasUsername : Bool
  hasWhitelistHosts : Bool
  hasWhitelistDcs : Bool
  hasBlacklistHosts : Bool
  hasBlacklistDcs : Bool
  sslOptions : Option Nat
  timestampGen : Option Nat
  retryPolicy : Option Nat
  defaults : ClusterDefaults
deriving DecidableEq

def ClusterBuilder.leftOut (self : ClusterBuilder) : LeftOut where
  hasUsername := self.username.isSome
  hasWhitelistHosts := self.whitelistHosts.isSome
  hasWhitelistDcs := self.whitelistDcs.isSome
  hasBlacklistHosts := self.blacklistHosts.isSome
  hasBlacklistDcs := self.blacklistDcs.isSome
  sslOptions := self.sslOptions
  timestampGen := self.timestampGen
  retryPolicy := self.retryPolicy
  defaults := self.defaults

theorem safeStr_localDc (same : a.loadBalance = b.loadBalance) :
    safeStr a.localDc = safeStr b.localDc := by
  have first := a.localized
  have second := b.localized
  rw [ClusterBuilder.loadBalance, ClusterBuilder.loadBalance] at same
  cases policy : a.loadBalancingPolicy <;> cases other : b.loadBalancingPolicy <;>
    simp_all [map_cString_eq_iff]

theorem safeStr_credentials (same : a.settings.credentials = b.settings.credentials) :
    safeStr a.username = safeStr b.username ∧ safeStr a.password = safeStr b.password := by
  have first := a.credentialed
  have second := b.credentialed
  simp only [ClusterBuilder.settings] at same
  cases username : a.username <;> cases other : b.username <;>
    simp_all [map_cString_eq_iff, safeStr]

theorem credentials_eq_iff (username : safeStr a.username = safeStr b.username)
    (password : safeStr a.password = safeStr b.password) :
    a.settings.credentials = b.settings.credentials ↔
      a.username.isSome = b.username.isSome := by
  have first := a.credentialed
  have second := b.credentialed
  simp only [ClusterBuilder.settings]
  cases named : a.username <;> cases other : b.username <;>
    simp_all [map_cString_eq_iff, safeStr]

theorem SameStrings.of_settings (same : a.settings = b.settings) : SameStrings a b := by
  have contactPoints := congrArg ClusterSettings.contactPoints same
  have loadBalance := congrArg ClusterSettings.loadBalance same
  have credentials := congrArg ClusterSettings.credentials same
  have blacklistHosts := congrArg ClusterSettings.blacklistFiltering same
  have whitelistHosts := congrArg ClusterSettings.whitelistFiltering same
  have blacklistDcs := congrArg ClusterSettings.blacklistDcFiltering same
  have whitelistDcs := congrArg ClusterSettings.whitelistDcFiltering same
  refine ⟨contactPoints, ?_, ?_, ?_, (map_cString_eq_iff.mp whitelistHosts).1,
    (map_cString_eq_iff.mp whitelistDcs).1, (map_cString_eq_iff.mp blacklistHosts).1,
    (map_cString_eq_iff.mp blacklistDcs).1⟩
  · exact safeStr_localDc loadBalance
  · exact (safeStr_credentials credentials).1
  · exact (safeStr_credentials credentials).2

/-- Settings that agree in the key differ in what is left out of it, or not at all. -/
theorem settings_eq_iff (keyed : a.keyed = b.keyed) :
    a.settings = b.settings ∧ a.defaults = b.defaults ↔ a.leftOut = b.leftOut := by
  simp only [ClusterBuilder.keyed, List.cons.injEq, printed_inj, toInt32_eq_iff, flag_inj,
    LoadBalancing.code_inj, and_true] at keyed
  obtain ⟨contactPoints, port, policy, localDc, usedHosts, allowRemoteDcs, tokenAware, username,
    password, connectTimeout, requestTimeout, protocolVersion, ioThreads, coreConnections,
    maxConnections, reconnect, latencyAware, tcpNodelay, tcpKeepalive, keepaliveDelay, schema,
    hostnames, randomized, heartbeat, whitelistHosts, whitelistDcs, blacklistHosts,
    blacklistDcs⟩ := keyed
  have loadBalance : a.loadBalance = b.loadBalance := by
    have named : a.localDc.map cString = b.localDc.map cString :=
      map_cString_eq_iff.mpr ⟨localDc, by rw [a.localized, b.localized, policy]⟩
    rw [ClusterBuilder.loadBalance, ClusterBuilder.loadBalance, policy, named, usedHosts,
      allowRemoteDcs]
  have credentials := credentials_eq_iff username password
  simp only [ClusterBuilder.settings] at credentials
  have points : cString a.contactPoints = cString b.contactPoints := contactPoints
  simp only [ClusterBuilder.settings, ClusterSettings.mk.injEq, ClusterBuilder.leftOut,
    LeftOut.mk.injEq, map_cString_eq_iff, *, true_and]
  tauto

/-- Everything that a pair of configurations and a pair of keyspaces must not share a key
for. -/
structure KeysFaithful (a b : ClusterBuilder) (keyspace other : Option (List UInt8)) : Prop where
  cluster : a.hashKey = b.hashKey → a.settings = b.settings ∧ a.defaults = b.defaults
  session : sessionKey a.hashKey keyspace = sessionKey b.hashKey other →
    a.hashKey = b.hashKey ∧ keyspace.map cString = other.map cString
  apart : sessionKey a.hashKey keyspace ≠ b.hashKey
  apart_other : sessionKey b.hashKey other ≠ a.hashKey

/-- The text after the first of two words `session` in one key is after the second one in the
other. -/
def Continues (pieces : List (List UInt8)) (keyspace : Option (List UInt8))
    (longer : List (List UInt8)) (other : Option (List UInt8)) : Prop :=
  ∃ between, longer = pieces ++ sessionWord :: between ∧
    keyspacePieces keyspace = between ++ sessionWord :: keyspacePieces other

/-- How keys are shared, in terms of the pieces that colons cut the strings into. -/
inductive Confused (a b : ClusterBuilder) (keyspace other : Option (List UInt8)) : Prop
  /-- Settings that are not in the key, or `NULL` for an empty string. -/
  | leftOut (keyed : a.keyed = b.keyed) (differ : a.leftOut ≠ b.leftOut)
  /-- A colon in one string stands for the end of another. -/
  | shifted (keyed : a.keyed ≠ b.keyed) (same : a.keyPieces = b.keyPieces)
  /-- No keyspace and an empty one. -/
  | unnamed (same : a.keyPieces = b.keyPieces) (strings : safeStr keyspace = safeStr other)
      (differ : keyspace.isSome ≠ other.isSome)
  | continues (overlap : Continues a.keyPieces keyspace b.keyPieces other)
  | continued (overlap : Continues b.keyPieces other a.keyPieces keyspace)
  /-- A cluster key that is a session key. -/
  | nested (same : b.keyPieces = a.keyPieces ++ sessionWord :: keyspacePieces keyspace)
  | nests (same : a.keyPieces = b.keyPieces ++ sessionWord :: keyspacePieces other)

theorem cluster_iff :
    (a.hashKey = b.hashKey → a.settings = b.settings ∧ a.defaults = b.defaults) ↔
      ¬(a.keyed = b.keyed ∧ a.leftOut ≠ b.leftOut) ∧
        ¬(a.keyed ≠ b.keyed ∧ a.keyPieces = b.keyPieces) := by
  rw [ClusterBuilder.hashKey_eq_iff]
  constructor
  · intro faithful
    constructor
    · rintro ⟨keyed, differ⟩
      have pieces : a.keyPieces = b.keyPieces := by
        rw [ClusterBuilder.keyPieces, ClusterBuilder.keyPieces, keyed]
      exact differ ((settings_eq_iff keyed).mp (faithful pieces))
    · rintro ⟨differ, pieces⟩
      exact differ ((SameStrings.of_settings (faithful pieces).1).keyed_eq pieces)
  · rintro ⟨sameLeftOut, notShifted⟩ pieces
    have keyed : a.keyed = b.keyed := by
      by_contra differ
      exact notShifted ⟨differ, pieces⟩
    apply (settings_eq_iff keyed).mpr
    by_contra differ
    exact sameLeftOut ⟨keyed, differ⟩

theorem append_word_eq_iff {word : α} {front back other rest : List α} :
    front ++ word :: back = other ++ word :: rest ↔
      front = other ∧ back = rest ∨
      (∃ between, other = front ++ word :: between ∧ back = between ++ word :: rest) ∨
      ∃ between, front = other ++ word :: between ∧ rest = between ++ word :: back := by
  rw [List.append_eq_append_iff]
  constructor
  · rintro (⟨between, rfl, same⟩ | ⟨between, rfl, same⟩)
    · cases between with
      | nil => exact Or.inl ⟨(List.append_nil _).symm, (List.cons.inj same).2⟩
      | cons first between =>
          obtain ⟨rfl, rest⟩ := List.cons.inj same
          exact Or.inr (Or.inl ⟨between, rfl, rest⟩)
    · cases between with
      | nil => exact Or.inl ⟨List.append_nil _, (List.cons.inj same).2.symm⟩
      | cons first between =>
          obtain ⟨rfl, rest⟩ := List.cons.inj same
          exact Or.inr (Or.inr ⟨between, rfl, rest⟩)
  · rintro (⟨rfl, rfl⟩ | ⟨between, rfl, rfl⟩ | ⟨between, rfl, rfl⟩)
    · exact Or.inl ⟨[], (List.append_nil _).symm, rfl⟩
    · exact Or.inl ⟨word :: between, rfl, rfl⟩
    · exact Or.inr ⟨word :: between, rfl, rfl⟩

theorem sessionKey_eq_iff {keyspace other : Option (List UInt8)} :
    sessionKey a.hashKey keyspace = sessionKey b.hashKey other ↔
      a.keyPieces = b.keyPieces ∧ safeStr keyspace = safeStr other ∨
      Continues a.keyPieces keyspace b.keyPieces other ∨
      Continues b.keyPieces other a.keyPieces keyspace := by
  rw [← splitOn_inj keySeparator, splitOn_sessionKey, splitOn_sessionKey,
    append_word_eq_iff, keyspacePieces, keyspacePieces, splitOn_inj]
  rfl

theorem sessionKey_eq_hashKey_iff {keyspace : Option (List UInt8)} :
    sessionKey a.hashKey keyspace = b.hashKey ↔
      b.keyPieces = a.keyPieces ++ sessionWord :: keyspacePieces keyspace := by
  rw [← splitOn_inj keySeparator, splitOn_sessionKey, b.splitOn_hashKey, eq_comm]

theorem Continues.pieces_ne {pieces longer : List (List UInt8)}
    {keyspace other : Option (List UInt8)} (overlap : Continues pieces keyspace longer other) :
    pieces ≠ longer := by
  obtain ⟨between, rfl, _⟩ := overlap
  intro same
  have length := congrArg List.length same
  simp at length

theorem session_iff {keyspace other : Option (List UInt8)} :
    (sessionKey a.hashKey keyspace = sessionKey b.hashKey other →
      a.hashKey = b.hashKey ∧ keyspace.map cString = other.map cString) ↔
      ¬(a.keyPieces = b.keyPieces ∧ safeStr keyspace = safeStr other ∧
        keyspace.isSome ≠ other.isSome) ∧
      ¬Continues a.keyPieces keyspace b.keyPieces other ∧
      ¬Continues b.keyPieces other a.keyPieces keyspace := by
  rw [sessionKey_eq_iff, ClusterBuilder.hashKey_eq_iff, map_cString_eq_iff]
  constructor
  · intro faithful
    refine ⟨?_, ?_, ?_⟩
    · rintro ⟨pieces, strings, differ⟩
      exact differ (faithful (Or.inl ⟨pieces, strings⟩)).2.2
    · intro overlap
      exact overlap.pieces_ne (faithful (Or.inr (Or.inl overlap))).1
    · intro overlap
      exact overlap.pieces_ne (faithful (Or.inr (Or.inr overlap))).1.symm
  · rintro ⟨named, notContinues, notContinued⟩ (⟨pieces, strings⟩ | overlap | overlap)
    · refine ⟨pieces, strings, ?_⟩
      by_contra differ
      exact named ⟨pieces, strings, differ⟩
    · exact absurd overlap notContinues
    · exact absurd overlap notContinued

theorem keysFaithful_iff (a b : ClusterBuilder) (keyspace other : Option (List UInt8)) :
    KeysFaithful a b keyspace other ↔ ¬Confused a b keyspace other := by
  constructor
  · rintro ⟨cluster, session, apart, apartOther⟩ confused
    rw [cluster_iff] at cluster
    rw [session_iff] at session
    rw [Ne, sessionKey_eq_hashKey_iff] at apart apartOther
    cases confused with
    | leftOut keyed differ => exact cluster.1 ⟨keyed, differ⟩
    | shifted keyed same => exact cluster.2 ⟨keyed, same⟩
    | unnamed same strings differ => exact session.1 ⟨same, strings, differ⟩
    | continues overlap => exact session.2.1 overlap
    | continued overlap => exact session.2.2 overlap
    | nested same => exact apart same
    | nests same => exact apartOther same
  · intro clear
    refine ⟨cluster_iff.mpr ⟨?_, ?_⟩, session_iff.mpr ⟨?_, ?_, ?_⟩, ?_, ?_⟩
    · exact fun ⟨keyed, differ⟩ => clear (.leftOut keyed differ)
    · exact fun ⟨keyed, same⟩ => clear (.shifted keyed same)
    · exact fun ⟨same, strings, differ⟩ => clear (.unnamed same strings differ)
    · exact fun overlap => clear (.continues overlap)
    · exact fun overlap => clear (.continued overlap)
    · exact fun same => clear (.nested (sessionKey_eq_hashKey_iff.mp same))
    · exact fun same => clear (.nests (sessionKey_eq_hashKey_iff.mp same))

/-- Credentials that share a key, and a page size that is not in it. -/
theorem credentials_share_a_key :
    ¬KeysFaithful { username := some (ascii "a:b"), password := some (ascii "c") }
        { username := some (ascii "a"), password := some (ascii "b:c") } none none ∧
      ¬KeysFaithful {} { defaultPageSize := 1 } none none := by
  constructor
  · intro faithful
    have settings := (faithful.cluster (by decide +kernel)).1
    exact absurd settings (by decide +kernel)
  · intro faithful
    have defaults := (faithful.cluster rfl).2
    exact absurd defaults (by decide)

end PhpDriver
