import IdaMcp.HttpAccess.Policy

namespace IdaMcp.HttpAccess

open Foundation Text

/-! What the headers name. -/

def u16FromStr : Chars → Option ℕ := Radix.fromStrRadix 10 65536

def SameHost (a b : Chars) : Prop := normalizeHost a = normalizeHost b

def SamePort (a b : Chars) : Prop := a = b ∨ ∃ port, u16FromStr a = some port ∧ u16FromStr b = some port

def OriginListed (allowOrigin : List Chars) (value : HeaderValue) : Prop :=
  ∃ text, value.toStr = some text ∧ text ≠ [] ∧ ∃ entry ∈ allowOrigin, trim entry = text

def BindServes (ip : IpAddr) (host : Chars) : Prop :=
  host = "localhost".toList ∧ (ip.isLoopback ∨ ip.isUnspecified) ∨
    ∃ hostIp, IpAddr.parse host = some hostIp ∧
      (ip.isUnspecified ∨ ip.isLoopback ∧ hostIp.isLoopback ∨ hostIp = ip)

def ServedByBind (bindAddr : SocketAddr) (authority : Authority) : Prop :=
  BindServes bindAddr.ip (normalizeHost authority.host) ∧
    (authority.port = [] ∨ u16FromStr authority.port = some bindAddr.port)

section Parser

variable (tryFrom : Chars → Option Authority)

/-- `port_u16` is the port when it is a number below 65536, and nothing else. -/
def ReadsPorts : Prop :=
  ∀ text authority, tryFrom text = some authority → authority.portU16 = u16FromStr authority.port

/-- The host and the port of an entry; what is not an authority is a host as a whole. -/
def entryOf (value : Chars) : Chars × Chars :=
  match tryFrom (trim value) with
  | some authority => (authority.host, authority.port)
  | none => (trim value, [])

def AllowListed (allowHost : Option (List Chars)) (authority : Authority) : Prop :=
  ∃ values ∈ allowHost, ∃ value ∈ values, trim value ≠ [] ∧
    SameHost (entryOf tryFrom value).1 authority.host ∧
    ((entryOf tryFrom value).2 = [] ∨ SamePort (entryOf tryFrom value).2 authority.port)

def HostNamed (bindAddr : SocketAddr) (allowHost : Option (List Chars)) (value : HeaderValue) : Prop :=
  ∃ text authority, value.toStr = some text ∧ tryFrom text = some authority ∧
    (AllowListed tryFrom allowHost authority ∨ ServedByBind bindAddr authority)

end Parser

/-! The rules for one value. -/

theorem localhost_unparsed : IpAddr.parse "localhost".toList = none := by
  cases hparse : IpAddr.parse "localhost".toList with
  | none => rfl
  | some ip =>
    have hchar : IpAddr.IsIpChar 'l' := IpAddr.parse_chars hparse 'l' (by simp)
    exact absurd hchar (by unfold IpAddr.IsIpChar; decide)

theorem bindServes_iff (ip : IpAddr) (host : Chars) :
    (if host = "localhost".toList then ip.isLoopback || ip.isUnspecified
      else match IpAddr.parse host with
        | none => false
        | some hostIp =>
          if ip.isUnspecified then true
          else if ip.isLoopback then hostIp.isLoopback
          else decide (hostIp = ip)) = true ↔ BindServes ip host := by
  unfold BindServes
  by_cases hlocal : host = "localhost".toList
  · rw [if_pos hlocal, hlocal, localhost_unparsed]
    grind
  · rw [if_neg hlocal]
    cases hparse : IpAddr.parse host with
    | none => grind
    | some hostIp =>
      have hself : hostIp = ip → hostIp.isLoopback = ip.isLoopback := congrArg _
      grind

theorem hostAllowedByBind_iff (policy : HttpAccessPolicy) (host : NormalizedAuthority) :
    policy.hostAllowedByBind host = true ↔
      BindServes policy.bindAddr.ip host.host ∧ (host.port = none ∨ host.port = some policy.bindAddr.port) := by
  have hport : portMatches host.port policy.bindAddr.port = true ↔
      host.port = none ∨ host.port = some policy.bindAddr.port := by
    unfold portMatches
    split <;> simp_all
  rw [← hport]
  unfold HttpAccessPolicy.hostAllowedByBind
  dsimp only
  cases portMatches host.port policy.bindAddr.port with
  | false => simp
  | true =>
    rw [if_neg Bool.true_eq_false_eq_False, and_iff_left rfl]
    exact bindServes_iff policy.bindAddr.ip host.host

theorem dnsName_refused (policy : HttpAccessPolicy) {host : NormalizedAuthority} {c : Char}
    (hc : c ∈ host.host) (hchar : ¬ IpAddr.IsIpChar c) (hlocal : host.host ≠ "localhost".toList) :
    policy.hostAllowedByBind host = false := by
  rw [← Bool.not_eq_true, hostAllowedByBind_iff]
  rintro ⟨⟨hhost, -⟩ | ⟨ip, hip, -⟩, -⟩
  · exact hlocal hhost
  · exact hchar (IpAddr.parse_chars hip c hc)

/-- A port that is written and is no number below 65536, which the check takes for none. -/
def Lost (port : Chars) : Prop := port ≠ [] ∧ u16FromStr port = none

section Parser

variable {tryFrom : Chars → Option Authority}

def keptEntry (tryFrom : Chars → Option Authority) (value : Chars) : NormalizedAuthority :=
  normalizeAuthority (entryOf tryFrom value).1 (u16FromStr (entryOf tryFrom value).2)

theorem parseAllowedAuthority_trim (hport : ReadsPorts tryFrom) {value : Chars} (hne : trim value ≠ []) :
    parseAllowedAuthority tryFrom (trim value) = some (keptEntry tryFrom value) := by
  unfold parseAllowedAuthority keptEntry entryOf
  rw [trim_trim]
  dsimp only
  rw [if_neg hne]
  cases hparse : tryFrom (trim value) with
  | none => rfl
  | some authority =>
    dsimp only
    rw [hport _ _ hparse]

theorem collectHosts_restricted (hport : ReadsPorts tryFrom)
    {hosts kept : List NormalizedAuthority} {values : List Chars}
    (h : collectHosts tryFrom hosts values = .restricted kept) :
    kept = hosts ++ (values.filter (trim · ≠ [])).map (keptEntry tryFrom) := by
  induction values generalizing hosts with
  | nil =>
    unfold collectHosts at h
    split_ifs at h
    cases h
    simp
  | cons value values ih =>
    unfold collectHosts at h
    dsimp only at h
    split_ifs at h with hstar hempty
    · rw [ih h, List.filter_cons_of_neg (by simp [hempty])]
    · rw [parseAllowedAuthority_trim hport hempty] at h
      rw [ih h, List.filter_cons_of_pos (by simpa using hempty)]
      simp

theorem contains_fromCli (hport : ReadsPorts tryFrom)
    {allowHost : Option (List Chars)} (henabled : HostAllowList.fromCli tryFrom allowHost ≠ .any)
    (host : NormalizedAuthority) :
    (HostAllowList.fromCli tryFrom allowHost).contains host = true ↔
      ∃ values ∈ allowHost, ∃ value ∈ values, trim value ≠ [] ∧
        (HostAllowList.restricted [keptEntry tryFrom value]).contains host = true := by
  cases allowHost with
  | none => simp [HostAllowList.fromCli, HostAllowList.contains]
  | some values =>
    cases hlist : HostAllowList.fromCli tryFrom (some values) with
    | any => exact absurd hlist henabled
    | restricted kept =>
      rw [collectHosts_restricted hport hlist]
      simp [HostAllowList.contains]

theorem keptEntry_admits (value : Chars) (host : Chars) (port : Option ℕ) :
    (HostAllowList.restricted [keptEntry tryFrom value]).contains (normalizeAuthority host port) = true ↔
      SameHost (entryOf tryFrom value).1 host ∧
        (u16FromStr (entryOf tryFrom value).2 = none ∨ port = u16FromStr (entryOf tryFrom value).2) := by
  unfold HostAllowList.contains SameHost keptEntry normalizeAuthority
  cases u16FromStr (entryOf tryFrom value).2 <;> simp

def BindTakes (bindAddr : SocketAddr) (authority : Authority) : Prop :=
  BindServes bindAddr.ip (normalizeHost authority.host) ∧
    (u16FromStr authority.port = none ∨ u16FromStr authority.port = some bindAddr.port)

def EntryTakes (tryFrom : Chars → Option Authority) (value : Chars) (authority : Authority) : Prop :=
  trim value ≠ [] ∧ SameHost (entryOf tryFrom value).1 authority.host ∧
    (u16FromStr (entryOf tryFrom value).2 = none ∨
      u16FromStr authority.port = u16FromStr (entryOf tryFrom value).2)

def Taken (tryFrom : Chars → Option Authority) (bindAddr : SocketAddr)
    (allowHost : Option (List Chars)) (authority : Authority) : Prop :=
  BindTakes bindAddr authority ∨
    ∃ values ∈ allowHost, ∃ value ∈ values, EntryTakes tryFrom value authority

/-- Each rule that takes the host does so because a port is lost: the header's for the bind rule,
the entry's for an entry, unless the header has the same text there. -/
def TakenByLostPorts (tryFrom : Chars → Option Authority) (bindAddr : SocketAddr)
    (allowHost : Option (List Chars)) (authority : Authority) : Prop :=
  (BindTakes bindAddr authority → Lost authority.port) ∧
    ∀ values ∈ allowHost, ∀ value ∈ values, EntryTakes tryFrom value authority →
      Lost (entryOf tryFrom value).2 ∧ (entryOf tryFrom value).2 ≠ authority.port

theorem servedByBind_iff (bindAddr : SocketAddr) (authority : Authority) :
    ServedByBind bindAddr authority ↔ BindTakes bindAddr authority ∧ ¬ Lost authority.port := by
  unfold ServedByBind BindTakes Lost
  have hnone : authority.port = [] → u16FromStr authority.port = none := by
    intro hempty
    rw [hempty]
    rfl
  grind

theorem entryListed_iff (value : Chars) (authority : Authority) :
    (trim value ≠ [] ∧ SameHost (entryOf tryFrom value).1 authority.host ∧
      ((entryOf tryFrom value).2 = [] ∨ SamePort (entryOf tryFrom value).2 authority.port)) ↔
    EntryTakes tryFrom value authority ∧
      ¬ (Lost (entryOf tryFrom value).2 ∧ (entryOf tryFrom value).2 ≠ authority.port) := by
  have hrule (port : Chars) : port = [] ∨ SamePort port authority.port ↔
      (u16FromStr port = none ∨ u16FromStr authority.port = u16FromStr port) ∧
        ¬ (Lost port ∧ port ≠ authority.port) := by
    have hempty : port = [] → u16FromStr port = none := by
      rintro rfl
      rfl
    unfold SamePort Lost
    cases hread : u16FromStr port <;> grind
  unfold EntryTakes
  rw [hrule, and_assoc, and_assoc]

theorem listed_or_served_iff (bindAddr : SocketAddr) (allowHost : Option (List Chars))
    (authority : Authority) :
    AllowListed tryFrom allowHost authority ∨ ServedByBind bindAddr authority ↔
      ¬ TakenByLostPorts tryFrom bindAddr allowHost authority := by
  unfold AllowListed TakenByLostPorts
  simp only [entryListed_iff, servedByBind_iff]
  push Not
  grind

/-! The request. -/

structure Right (tryFrom : Chars → Option Authority) (bindAddr : SocketAddr) (allowOrigin : List Chars)
    (allowHost : Option (List Chars)) (headers : HeaderMap) : Prop where
  origins : ∀ value ∈ headers.origin, OriginListed allowOrigin value
  hosts : ∀ value ∈ headers.host, HostNamed tryFrom bindAddr allowHost value

def OriginPasses (policy : HttpAccessPolicy) (value : HeaderValue) : Prop :=
  ∃ text, value.toStr = some text ∧ text ∈ policy.allowedOrigins

def HostPasses (tryFrom : Chars → Option Authority) (policy : HttpAccessPolicy) (authority : Authority)
    (value : HeaderValue) : Prop :=
  ∃ text, value.toStr = some text ∧ tryFrom text = some authority ∧
    (policy.hostAllowedByBind (normalizeAuthority authority.host authority.portU16) = true ∨
      policy.allowedHosts.contains (normalizeAuthority authority.host authority.portU16) = true)

theorem validateOrigin_ok (policy : HttpAccessPolicy) (headers : HeaderMap) :
    policy.validateOrigin headers = .ok () ↔ ∀ value ∈ headers.origin.head?, OriginPasses policy value := by
  unfold HttpAccessPolicy.validateOrigin OriginPasses
  cases headers.origin.head? with
  | none => simp
  | some value =>
    simp only [Option.mem_some_iff, forall_eq']
    cases value.toStr with
    | none => simp
    | some text =>
      simp only [Option.some_inj, exists_eq_left']
      by_cases hlisted : policy.allowedOrigins.contains text = true
      · exact iff_of_true (if_pos hlisted) (List.contains_iff_mem.mp hlisted)
      · rw [if_neg hlisted]
        exact iff_of_false (fun h => nomatch h) (mt List.contains_iff_mem.mpr hlisted)

theorem validateHost_ok {policy : HttpAccessPolicy} (henabled : policy.hostCheckDisabled = false)
    (headers : HeaderMap) : policy.validateHost tryFrom headers = .ok () ↔
      ∃ value ∈ headers.host.head?, ∃ authority, HostPasses tryFrom policy authority value := by
  unfold HttpAccessPolicy.validateHost parseHostHeader HostPasses
  cases headers.host.head? with
  | none => simp [bind, Except.bind]
  | some value =>
    simp only [Option.mem_some_iff, exists_eq_left']
    cases value.toStr with
    | none => simp [bind, Except.bind]
    | some text =>
      cases hparse : tryFrom text with
      | none => simp [bind, Except.bind, hparse]
      | some authority =>
        simp only [bind, Except.bind, hparse, henabled, Option.some_inj, exists_eq_left',
          Bool.false_eq_true, if_false, ← Bool.or_eq_true]
        split_ifs with hpasses
        · simp [hpasses]
        · exact iff_of_false (fun h => nomatch h) hpasses

theorem call_ok {policy : HttpAccessPolicy} (henabled : policy.hostCheckDisabled = false)
    (headers : HeaderMap) : call tryFrom policy headers = .ok headers ↔
      (∀ value ∈ headers.origin.head?, OriginPasses policy value) ∧
        ∃ value ∈ headers.host.head?, ∃ authority, HostPasses tryFrom policy authority value := by
  rw [← validateOrigin_ok, ← validateHost_ok henabled]
  unfold call HttpAccessPolicy.validate
  cases policy.validateOrigin headers with
  | error response => simp [bind, Except.bind]
  | ok _ => cases policy.validateHost tryFrom headers <;> simp [bind, Except.bind]

theorem originPasses_iff (bindAddr : SocketAddr) (allowOrigin : List Chars)
    (allowHost : Option (List Chars)) (value : HeaderValue) :
    OriginPasses (.fromCli tryFrom bindAddr allowOrigin allowHost) value ↔
      OriginListed allowOrigin value := by
  unfold OriginPasses OriginListed HttpAccessPolicy.fromCli cleanAllowlist
  grind

/-- The first values are taken, and one after them is not allowed or the first host is taken by
lost ports alone. -/
def Exposed (tryFrom : Chars → Option Authority) (bindAddr : SocketAddr) (allowOrigin : List Chars)
    (allowHost : Option (List Chars)) (headers : HeaderMap) : Prop :=
  (∀ value ∈ headers.origin.head?, OriginListed allowOrigin value) ∧
  ∃ value ∈ headers.host.head?, ∃ text authority,
    value.toStr = some text ∧ tryFrom text = some authority ∧
    Taken tryFrom bindAddr allowHost authority ∧
    ((∃ value ∈ headers.origin.tail, ¬ OriginListed allowOrigin value) ∨
      (∃ value ∈ headers.host.tail, ¬ HostNamed tryFrom bindAddr allowHost value) ∨
      TakenByLostPorts tryFrom bindAddr allowHost authority)

theorem forall_mem_iff_head_tail {α : Type*} {p : α → Prop} (xs : List α) :
    (∀ x ∈ xs, p x) ↔ (∀ x ∈ xs.head?, p x) ∧ ∀ x ∈ xs.tail, p x := by
  cases xs <;> simp

theorem hostPasses_iff (hport : ReadsPorts tryFrom) {bindAddr : SocketAddr} {allowOrigin : List Chars}
    {allowHost : Option (List Chars)}
    (henabled : (HttpAccessPolicy.fromCli tryFrom bindAddr allowOrigin allowHost).hostCheckDisabled = false)
    (authority : Authority) (value : HeaderValue) :
    HostPasses tryFrom (.fromCli tryFrom bindAddr allowOrigin allowHost) authority value ↔
      ∃ text, value.toStr = some text ∧ tryFrom text = some authority ∧
        Taken tryFrom bindAddr allowHost authority := by
  have hlist : HostAllowList.fromCli tryFrom allowHost ≠ .any := of_decide_eq_false henabled
  unfold HostPasses
  refine exists_congr fun text => and_congr_right fun _ => and_congr_right fun hparse => ?_
  rw [hostAllowedByBind_iff]
  change _ ∨ (HostAllowList.fromCli tryFrom allowHost).contains _ = true ↔ _
  rw [contains_fromCli hport hlist, hport _ _ hparse]
  simp only [keptEntry_admits]
  rfl

theorem hostNamed_iff {bindAddr : SocketAddr} {allowHost : Option (List Chars)} {authority : Authority}
    {value : HeaderValue} {text : Chars} (htext : value.toStr = some text)
    (hparse : tryFrom text = some authority) :
    HostNamed tryFrom bindAddr allowHost value ↔
      ¬ TakenByLostPorts tryFrom bindAddr allowHost authority := by
  rw [← listed_or_served_iff]
  unfold HostNamed
  grind

theorem exposed_iff (hport : ReadsPorts tryFrom) (bindAddr : SocketAddr) (allowOrigin : List Chars)
    (allowHost : Option (List Chars)) (headers : HeaderMap)
    (henabled : (HttpAccessPolicy.fromCli tryFrom bindAddr allowOrigin allowHost).hostCheckDisabled = false) :
    Exposed tryFrom bindAddr allowOrigin allowHost headers ↔
      call tryFrom (.fromCli tryFrom bindAddr allowOrigin allowHost) headers = .ok headers ∧
        ¬ Right tryFrom bindAddr allowOrigin allowHost headers := by
  rw [call_ok henabled]
  simp only [originPasses_iff, hostPasses_iff hport henabled]
  constructor
  · rintro ⟨horigin, value, hvalue, text, authority, htext, hparse, htaken, hbad⟩
    refine ⟨⟨horigin, value, hvalue, authority, text, htext, hparse, htaken⟩, ?_⟩
    intro hright
    rcases hbad with ⟨other, hother, hnot⟩ | ⟨other, hother, hnot⟩ | hlost
    · exact hnot (hright.origins other (List.mem_of_mem_tail hother))
    · exact hnot (hright.hosts other (List.mem_of_mem_tail hother))
    · exact (hostNamed_iff htext hparse).mp (hright.hosts value (List.mem_of_mem_head? hvalue)) hlost
  · rintro ⟨⟨horigin, value, hvalue, authority, text, htext, hparse, htaken⟩, hwrong⟩
    refine ⟨horigin, value, hvalue, text, authority, htext, hparse, htaken, ?_⟩
    by_contra hgood
    push Not at hgood
    obtain ⟨horigins, hhosts, hkept⟩ := hgood
    apply hwrong
    constructor
    · exact (forall_mem_iff_head_tail _).mpr ⟨horigin, horigins⟩
    · refine (forall_mem_iff_head_tail _).mpr ⟨?_, hhosts⟩
      intro host hhost
      rw [Option.mem_def, Option.mem_def.mp hvalue, Option.some_inj] at hhost
      rw [← hhost]
      exact (hostNamed_iff htext hparse).mpr hkept

/-- What reaches the inner service is named by its headers exactly when every value after the first
is right too and the first host is not taken by lost ports alone. -/
theorem admitted_named_iff (bindAddr : SocketAddr) (allowOrigin : List Chars)
    (allowHost : Option (List Chars)) (headers : HeaderMap) (hport : ReadsPorts tryFrom)
    (henabled : (HttpAccessPolicy.fromCli tryFrom bindAddr allowOrigin allowHost).hostCheckDisabled = false) :
    (call tryFrom (.fromCli tryFrom bindAddr allowOrigin allowHost) headers = .ok headers →
      Right tryFrom bindAddr allowOrigin allowHost headers) ↔
    ¬ Exposed tryFrom bindAddr allowOrigin allowHost headers := by
  rw [exposed_iff hport bindAddr allowOrigin allowHost headers henabled, not_and, not_not]

end Parser

def splitAuthority (text : Chars) : Option Authority :=
  match text.splitOn ':' with
  | [host] => some ⟨host, [], none⟩
  | [host, port] => some ⟨host, port, u16FromStr port⟩
  | _ => none

theorem splitAuthority_readsPorts : ReadsPorts splitAuthority := by
  intro text authority h
  unfold splitAuthority at h
  split at h <;> cases h <;> rfl

def headerValue (text : String) : HeaderValue := text.toList.map fun c => UInt8.ofNat c.toNat

def loopbackBind : SocketAddr where
  ip := .v4 127 0 0 1
  port := 8765

theorem loopback_request_named : Right splitAuthority loopbackBind [] none
    ⟨[headerValue "127.0.0.1:8765"], []⟩ := by
  have hnamed := admitted_named_iff loopbackBind [] none ⟨[headerValue "127.0.0.1:8765"], []⟩
    splitAuthority_readsPorts rfl
  refine hnamed.mpr ?_ rfl
  rintro ⟨-, value, hvalue, text, authority, htext, hparse, -, hbad⟩
  cases hvalue
  obtain rfl : "127.0.0.1:8765".toList = text := Option.some_inj.mp htext
  obtain rfl : (⟨"127.0.0.1".toList, "8765".toList, some 8765⟩ : Authority) = authority :=
    Option.some_inj.mp hparse
  rcases hbad with ⟨_, hother, -⟩ | ⟨_, hother, -⟩ | ⟨hlost, -⟩
  · exact absurd hother List.not_mem_nil
  · exact absurd hother List.not_mem_nil
  · have hserves : BindServes loopbackBind.ip (normalizeHost "127.0.0.1".toList) :=
      .inr ⟨.v4 127 0 0 1, rfl, .inr (.inr rfl)⟩
    exact absurd (hlost ⟨hserves, .inr rfl⟩).2 (by decide)

theorem unserved_host {text : String} (host port : Chars) (portU16 : Option ℕ)
    (htext : (headerValue text).toStr = some text.toList)
    (hparse : splitAuthority text.toList = some ⟨host, port, portU16⟩)
    (hserved : ¬ ServedByBind loopbackBind ⟨host, port, portU16⟩) :
    ¬ HostNamed splitAuthority loopbackBind none (headerValue text) := by
  rintro ⟨text', authority, htext', hparse', hnamed⟩
  rw [htext, Option.some_inj] at htext'
  rw [← htext', hparse, Option.some_inj] at hparse'
  subst hparse'
  obtain ⟨values, hvalues, -⟩ | hbind := hnamed
  · cases hvalues
  · exact hserved hbind

/-- A second host is not looked at, and a port that is too large counts as none. -/
theorem unnamed_hosts_admitted :
    (call splitAuthority (.fromCli splitAuthority loopbackBind [] none)
        ⟨[headerValue "127.0.0.1:8765", headerValue "example.com:8765"], []⟩ =
          .ok ⟨[headerValue "127.0.0.1:8765", headerValue "example.com:8765"], []⟩ ∧
      ¬ Right splitAuthority loopbackBind [] none
        ⟨[headerValue "127.0.0.1:8765", headerValue "example.com:8765"], []⟩) ∧
    call splitAuthority (.fromCli splitAuthority loopbackBind [] none)
        ⟨[headerValue "localhost:99999"], []⟩ = .ok ⟨[headerValue "localhost:99999"], []⟩ ∧
      ¬ Right splitAuthority loopbackBind [] none ⟨[headerValue "localhost:99999"], []⟩ := by
  refine ⟨⟨rfl, fun hright => ?_⟩, rfl, fun hright => ?_⟩
  · have hhost := hright.hosts (headerValue "example.com:8765") (by simp)
    refine unserved_host "example.com".toList "8765".toList (some 8765) rfl rfl ?_ hhost
    rintro ⟨⟨hlocal, -⟩ | ⟨ip, hip, -⟩, -⟩
    · exact absurd hlocal (by decide)
    · exact nomatch hip
  · have hhost := hright.hosts (headerValue "localhost:99999") (by simp)
    refine unserved_host "localhost".toList "99999".toList none rfl rfl ?_ hhost
    rintro ⟨-, hempty | hbind⟩
    · cases hempty
    · exact nomatch hbind

end IdaMcp.HttpAccess
