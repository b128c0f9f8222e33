/-
**Requests to addresses that users name.**

A URL is validated before it is requested, and so is every redirect: its port, its host if that is
an address, and otherwise its name, and if so configured the addresses the name resolves to.  Then
the client takes the URL apart in its own way, resolves the name again and connects.  What has been
validated covers the connection only where both look at the same thing.

Main definitions:

* `NewApi.isPrivateIP`, `NewApi.SSRFProtection.isIPAccessAllowed`, `NewApi.isDomainListed` — the
  classification of addresses and names;
* `NewApi.SSRFProtection.validateURL`, `NewApi.validateURLWithFetchSetting` — the validation;
* `NewApi.Hop`, `NewApi.contacts` — a request with its redirects, and whom the client contacts;
* `NewApi.Safe` — a contact that the protection is meant to permit;
* `NewApi.CoveredContact` — what is contacted is what has been validated, or is permitted itself.

Main results:

* `NewApi.isPrivateIP_of_internal` — private, loopback and link-local addresses are refused;
* `NewApi.validateURL_literal` — an accepted address is the one that is contacted;
* `NewApi.safe_iff_covered` — a contact for an accepted URL is safe exactly if it is covered;
* `NewApi.contacts_safe` — **every covered contact of a request and its redirects is safe**;
* `NewApi.contacts_unsafe` — a name that resolves to another address later, a dot at the end of a
  name, and a port behind an address without brackets.
-/

import NewApi.Common
import NewApi.Lib.NetAddr

set_option autoImplicit false

namespace NewApi

open NetAddr

/-! ### Addresses -/

def privateIPv4Nets : List Net :=
  [.v4 (v4 0 0 0 0) 8, .v4 (v4 10 0 0 0) 8, .v4 (v4 100 64 0 0) 10, .v4 (v4 127 0 0 0) 8,
    .v4 (v4 169 254 0 0) 16, .v4 (v4 172 16 0 0) 12, .v4 (v4 192 0 0 0) 24, .v4 (v4 192 0 2 0) 24,
    .v4 (v4 192 168 0 0) 16, .v4 (v4 198 18 0 0) 15, .v4 (v4 198 51 100 0) 24,
    .v4 (v4 203 0 113 0) 24, .v4 (v4 224 0 0 0) 4, .v4 (v4 240 0 0 0) 4,
    .v4 (v4 255 255 255 255) 32]

def privateIPv6Nets : List Net :=
  ["::/128", "::1/128", "::ffff:0:0/96", "64:ff9b::/96", "100::/64", "2001::/23", "2001:db8::/32",
    "fc00::/7", "fe80::/10", "ff00::/8"].filterMap fun c => parseCIDR c.toList

def isPrivateIP (ip : Ip) : Bool :=
  ip.isUnspecified || ip.isLoopback || ip.isLinkLocalUnicast || ip.isLinkLocalMulticast ||
    ip.isInterfaceLocalMulticast ||
    match ip.to4 with
    | some _ => privateIPv4Nets.any fun n => n.contains ip
    | none => privateIPv6Nets.any (fun n => n.contains ip) || ip.isPrivate

def isIpInCIDRList (ip : Ip) (cidrList : List String) : Bool :=
  cidrList.any fun cidr =>
    match parseCIDR cidr.toList with
    | some network => network.contains ip
    | none => parseIP cidr.toList == some ip

/-! ### Configuration -/

structure SSRFProtection where
  allowPrivateIp : Bool
  domainFilterMode : Bool
  domainList : List String
  ipFilterMode : Bool
  ipList : List String
  allowedPorts : List ℕ
  applyIPFilterForDomain : Bool

/-- `strconv.Atoi` of digits, with a sign. -/
def strconvAtoi (l : List Char) : Option ℤ :=
  let unsigned := fun l : List Char =>
    if l = [] then none else (numberIn 10 digitValue l).map fun n => (n : ℤ)
  let value := match l with
    | '-' :: l => (unsigned l).map fun n => -n
    | '+' :: l => unsigned l
    | l => unsigned l
  value.bind fun n => if -(2 ^ 63) ≤ n ∧ n < 2 ^ 63 then some n else none

/-- The ports of one entry of the configuration. -/
def parsePortRange (config : String) : Option (List ℕ) :=
  match config.toList.splitOn '-' with
  | [port] =>
    match strconvAtoi port with
    | some n => if n < 1 ∨ 65535 < n then none else some [n.toNat]
    | none => none
  | [start, stop] =>
    match strconvAtoi (trimList isSpace start), strconvAtoi (trimList isSpace stop) with
    | some m, some n =>
      if n < m ∨ m < 1 ∨ 65535 < m ∨ n < 1 ∨ 65535 < n then none
      else some (List.range' m.toNat (n - m + 1).toNat)
    | _, _ => none
  | _ => none

def parsePortRanges : List String → Option (List ℕ)
  | [] => some []
  | config :: configs =>
    let config := trimSpace config
    if config = "" then parsePortRanges configs
    else
      match parsePortRange config, parsePortRanges configs with
      | some ports, some ports' => some (ports ++ ports')
      | _, _ => none

/-- The lower case of a text, and the ASCII form of a name. -/
structure NameForms where
  toLower : String → String
  idnaASCII : List Char → Option (List Char)
  idna_ascii : ∀ l, Ascii l → idnaASCII l = some l

/-- The scheme and the authority of a URL.  The port of an authority consists of digits. -/
structure UrlParser where
  parse : String → Option (String × List Char)
  port_digits : ∀ {s scheme authority host port}, parse s = some (scheme, authority) →
    splitHostPort authority = some (host, port) → isDigits port = true

section Validation

variable (forms : NameForms) (urls : UrlParser)

def isDomainListed (domain : List Char) (list : List String) : Bool :=
  let domain := (forms.toLower (String.ofList domain)).toList
  list.any fun item =>
    let item := (forms.toLower (trimSpace item)).toList
    item ≠ [] && (domain == item ||
      (['*', '.'].isPrefixOf item &&
        (('.' :: item.drop 2).isSuffixOf domain || domain == item.drop 2)))

namespace SSRFProtection

variable (p : SSRFProtection)

def isAllowedPort (port : ℤ) : Bool :=
  p.allowedPorts.isEmpty || p.allowedPorts.any fun allowed => port == allowed

def isDomainAllowed (domain : List Char) : Bool :=
  isDomainListed forms domain p.domainList == p.domainFilterMode

def isIPAccessAllowed (ip : Ip) : Bool :=
  if isPrivateIP ip && !p.allowPrivateIp then false
  else isIpInCIDRList ip p.ipList == p.ipFilterMode

end SSRFProtection

def defaultPort (scheme : String) : List Char :=
  if scheme = "https" then ['4', '4', '3'] else ['8', '0']

/-- The host and the port that are validated. -/
def validatedHostPort (scheme : String) (authority : List Char) : List Char × List Char :=
  match splitHostPort authority with
  | some r => r
  | none => ((urlSplit authority).1, defaultPort scheme)

/-- `net.LookupIP`: an address, with or without a zone, is not looked up. -/
def lookupIP (host : List Char) (resolved : Option (List Ip)) : Option (List Ip) :=
  match parseAddr host with
  | some (ip, _) => some [ip]
  | none => resolved

/-- Whether a URL is accepted, when its name resolves to the addresses given. -/
def SSRFProtection.validateURL (p : SSRFProtection) (urlStr : String)
    (resolved : Option (List Ip)) : Bool :=
  match urls.parse urlStr with
  | none => false
  | some (scheme, authority) =>
    if scheme ≠ "http" ∧ scheme ≠ "https" then false
    else
      let (host, portStr) := validatedHostPort scheme authority
      match strconvAtoi portStr with
      | none => false
      | some port =>
        if ¬ p.isAllowedPort port then false
        else
          match parseIP host with
          | some ip => p.isIPAccessAllowed ip
          | none =>
            if ¬ p.isDomainAllowed forms host then false
            else if ¬ p.applyIPFilterForDomain then true
            else
              match lookupIP host resolved with
              | none => false
              | some ips => ips.all p.isIPAccessAllowed

structure FetchSetting where
  enableSSRFProtection : Bool
  allowPrivateIp : Bool
  domainFilterMode : Bool
  ipFilterMode : Bool
  domainList : List String
  ipList : List String
  allowedPorts : List String
  applyIPFilterForDomain : Bool

/-- The protection that a setting asks for, if its ports can be read. -/
def FetchSetting.protection (setting : FetchSetting) : Option SSRFProtection :=
  (parsePortRanges setting.allowedPorts).map fun ports =>
    { allowPrivateIp := setting.allowPrivateIp
      domainFilterMode := setting.domainFilterMode
      domainList := setting.domainList
      ipFilterMode := setting.ipFilterMode
      ipList := setting.ipList
      allowedPorts := ports
      applyIPFilterForDomain := setting.applyIPFilterForDomain }

def validateURLWithFetchSetting (setting : FetchSetting) (urlStr : String)
    (resolved : Option (List Ip)) : Bool :=
  if ¬ setting.enableSSRFProtection then true
  else
    match setting.protection with
    | none => false
    | some p => p.validateURL forms urls urlStr resolved

/-! ### Connections -/

/-- The name and the port the client connects to. -/
def clientHostPort (scheme : String) (authority : List Char) : List Char × List Char :=
  let (host, port) := urlSplit authority
  ((forms.idnaASCII host).getD host, if port = [] then defaultPort scheme else port)

/-- One URL that is requested: what its name resolves to when it is validated, and when the client
dials. -/
structure Hop where
  url : String
  resolved : Option (List Ip)
  dialed : List Ip

/-- A connection that is made. -/
structure Contact where
  name : List Char
  ip : Ip
  port : ℤ
deriving DecidableEq

/-- The addresses the client dials: an address is not looked up. -/
def dialedAddrs (name : List Char) (dialed : List Ip) : List Ip :=
  match parseAddr name with
  | some (ip, _) => [ip]
  | none => dialed

/-- The connections for one URL; there is none to a port that does not exist. -/
def Hop.contacts (hop : Hop) : List Contact :=
  match urls.parse hop.url with
  | none => []
  | some (scheme, authority) =>
    let (name, portStr) := clientHostPort forms scheme authority
    match strconvAtoi portStr with
    | none => []
    | some port =>
      if 65535 < port then []
      else (dialedAddrs name hop.dialed).map fun ip => ⟨name, ip, port⟩

def maxRedirects : ℕ := 10

/-- The URLs that are requested: the first one and the redirects, each as long as it is accepted;
`via` counts those before it. -/
def requested (setting : FetchSetting) : ℕ → List Hop → List Hop
  | _, [] => []
  | via, hop :: hops =>
    if ¬ validateURLWithFetchSetting forms urls setting hop.url hop.resolved then []
    else if maxRedirects ≤ via then []
    else hop :: requested setting (via + 1) hops

/-- All connections of a request with its redirects. -/
def contacts (setting : FetchSetting) (hops : List Hop) : List Contact :=
  (requested forms urls setting 0 hops).flatMap (Hop.contacts forms urls)

/-! ### What is meant to be permitted -/

/-- A private, loopback or link-local address. -/
def Internal (ip : Ip) : Prop :=
  ∃ n ∈ [Net.v4 (v4 10 0 0 0) 8, .v4 (v4 172 16 0 0) 12, .v4 (v4 192 168 0 0) 16,
    .v4 (v4 127 0 0 0) 8, .v4 (v4 169 254 0 0) 16, .v6 1 128, .v6 (0xfc00#128 <<< 112) 7,
    .v6 (0xfe80#128 <<< 112) 10], n.contains ip = true

/-- The name without a dot at its end. -/
def withoutDot (name : List Char) : List Char :=
  if name.getLast? = some '.' then name.dropLast else name

/-- A name on the deny list, up to case and a dot at the end. -/
def Denied (p : SSRFProtection) (name : List Char) : Prop :=
  p.domainFilterMode = false ∧
    (isDomainListed forms (withoutDot name) p.domainList = true ∨
      isDomainListed forms (withoutDot name ++ ['.']) p.domainList = true)

/-- A contact that the protection is meant to permit. -/
structure Safe (p : SSRFProtection) (c : Contact) : Prop where
  external : ¬ Internal c.ip
  allowed : p.isIPAccessAllowed c.ip = true
  port : p.isAllowedPort c.port = true
  name : ¬ Denied forms p c.name

/-- A contact is what has been validated, or is permitted itself: the authority is one that
`net.SplitHostPort` takes apart or one without a port, the host is an address or the address is
one of those that have been looked up and checked, and a denied name has been denied. -/
structure CoveredContact (p : SSRFProtection) (hop : Hop) (scheme : String)
    (authority : List Char) (c : Contact) : Prop where
  port : (splitHostPort authority).isSome ∨ (urlSplit authority).2 = [] ∨
    p.isAllowedPort c.port = true
  ip : (parseIP (validatedHostPort scheme authority).1).isSome ∨
    (p.applyIPFilterForDomain = true ∧
      ∃ ips ∈ lookupIP (validatedHostPort scheme authority).1 hop.resolved, c.ip ∈ ips) ∨
    p.isIPAccessAllowed c.ip = true
  name : Denied forms p c.name →
    parseIP (validatedHostPort scheme authority).1 = none ∧
      isDomainListed forms (validatedHostPort scheme authority).1 p.domainList = true

end Validation

/-! ### The classification of addresses -/

/-- **Private, loopback and link-local addresses are refused.** -/
theorem isPrivateIP_of_internal {ip : Ip} (h : Internal ip) : isPrivateIP ip = true := by
  obtain ⟨n, hn, hip⟩ := h
  cases h4 : ip.to4 with
  | some x =>
    have hmem : n ∈ privateIPv4Nets := by
      fin_cases hn <;> first | decide | (simp [Net.contains, h4] at hip)
    have hany : privateIPv4Nets.any (fun n => n.contains ip) = true :=
      List.any_eq_true.2 ⟨n, hmem, hip⟩
    simp [isPrivateIP, h4, hany]
  | none =>
    have hmem : n ∈ privateIPv6Nets := by
      fin_cases hn <;> first | (simp [Net.contains, h4] at hip; done) | decide +kernel
    have hany : privateIPv6Nets.any (fun n => n.contains ip) = true :=
      List.any_eq_true.2 ⟨n, hmem, hip⟩
    simp [isPrivateIP, h4, hany]

/-! ### Validation and connection -/

section Coverage

variable {forms : NameForms} {urls : UrlParser} {p : SSRFProtection} {hop : Hop} {scheme : String}
  {authority : List Char}

/-- The host that is validated is the host name of the URL. -/
theorem validatedHostPort_host (hparse : urls.parse hop.url = some (scheme, authority)) :
    (validatedHostPort scheme authority).1 = (urlSplit authority).1 := by
  rw [validatedHostPort]
  cases hsplit : splitHostPort authority with
  | none => rfl
  | some r =>
    obtain ⟨host, port⟩ := r
    rw [urlSplit_of_splitHostPort hsplit (urls.port_digits hparse hsplit)]

/-- What acceptance says of a URL: its port is a number that is allowed, and its host is an address
that may be accessed, or a name that may and whose addresses may. -/
structure Accepted (forms : NameForms) (p : SSRFProtection) (hop : Hop) (scheme : String)
    (authority : List Char) : Prop where
  port : ∃ port, strconvAtoi (validatedHostPort scheme authority).2 = some port ∧
    p.isAllowedPort port = true
  ip : ∀ ip ∈ parseIP (validatedHostPort scheme authority).1, p.isIPAccessAllowed ip = true
  domain : parseIP (validatedHostPort scheme authority).1 = none →
    p.isDomainAllowed forms (validatedHostPort scheme authority).1 = true
  resolved : parseIP (validatedHostPort scheme authority).1 = none →
    p.applyIPFilterForDomain = true →
      ∀ ips ∈ lookupIP (validatedHostPort scheme authority).1 hop.resolved,
        ∀ ip ∈ ips, p.isIPAccessAllowed ip = true

theorem accepted_of_validateURL (hparse : urls.parse hop.url = some (scheme, authority))
    (h : p.validateURL forms urls hop.url hop.resolved = true) :
    Accepted forms p hop scheme authority := by
  rw [SSRFProtection.validateURL, hparse] at h
  simp only at h
  split at h
  · cases h
  · cases hport : strconvAtoi (validatedHostPort scheme authority).2 with
    | none =>
      rw [hport] at h
      cases h
    | some port =>
      rw [hport] at h
      simp only at h
      split at h
      · cases h
      · rename_i hallowed
        have hport' : p.isAllowedPort port = true := by simpa using hallowed
        cases hip : parseIP (validatedHostPort scheme authority).1 with
        | some ip =>
          rw [hip] at h
          refine ⟨⟨port, hport, hport'⟩, ?_, ?_, ?_⟩
          · intro ip' hip'
            rw [hip] at hip'
            cases hip'
            exact h
          · intro hnone
            rw [hip] at hnone
            cases hnone
          · intro hnone
            rw [hip] at hnone
            cases hnone
        | none =>
          rw [hip] at h
          simp only at h
          split at h
          · cases h
          · rename_i hdomain
            refine ⟨⟨port, hport, hport'⟩, ?_, fun _ => by simpa using hdomain, ?_⟩
            · intro ip' hip'
              rw [hip] at hip'
              cases hip'
            · intro _ hfilter ips hips ip hmem
              rw [if_neg (by simp [hfilter]), Option.mem_def.1 hips] at h
              exact List.all_eq_true.1 h ip hmem

/-- The connections for a URL are made under its name and its port. -/
theorem mem_contacts (hparse : urls.parse hop.url = some (scheme, authority)) {c : Contact}
    (hc : c ∈ hop.contacts forms urls) :
    c.name = (clientHostPort forms scheme authority).1 ∧
      strconvAtoi (clientHostPort forms scheme authority).2 = some c.port ∧
      c.ip ∈ dialedAddrs c.name hop.dialed := by
  rw [Hop.contacts, hparse] at hc
  simp only at hc
  cases hport : strconvAtoi (clientHostPort forms scheme authority).2 with
  | none =>
    rw [hport] at hc
    cases hc
  | some port =>
    rw [hport] at hc
    simp only at hc
    split at hc
    · cases hc
    · obtain ⟨ip, hip, rfl⟩ := List.mem_map.1 hc
      exact ⟨rfl, rfl, hip⟩

/-- The client connects to the port that has been validated, where the authority has one that
`net.SplitHostPort` sees or none at all. -/
theorem clientPort_eq (hparse : urls.parse hop.url = some (scheme, authority)) {port : ℤ}
    (hport : strconvAtoi (validatedHostPort scheme authority).2 = some port)
    (hform : (splitHostPort authority).isSome ∨ (urlSplit authority).2 = []) :
    (clientHostPort forms scheme authority).2 = (validatedHostPort scheme authority).2 := by
  rw [validatedHostPort] at hport ⊢
  rw [clientHostPort]
  cases hsplit : splitHostPort authority with
  | none =>
    rw [hsplit] at hform
    have hnone : (urlSplit authority).2 = [] := hform.resolve_left (by simp)
    simp only [hnone, if_true]
  | some r =>
    obtain ⟨host, portStr⟩ := r
    rw [hsplit] at hport
    have hne : portStr ≠ [] := by
      rintro rfl
      simp [strconvAtoi] at hport
    simp only [urlSplit_of_splitHostPort hsplit (urls.port_digits hparse hsplit), if_neg hne]

theorem clientHostPort_name (scheme : String) (authority : List Char) :
    (clientHostPort forms scheme authority).1 =
      (forms.idnaASCII (urlSplit authority).1).getD (urlSplit authority).1 := rfl

/-- **An address that has been accepted is the one that is contacted.** -/
theorem validateURL_literal (hparse : urls.parse hop.url = some (scheme, authority))
    {ip : Ip} (hip : parseIP (validatedHostPort scheme authority).1 = some ip) {c : Contact}
    (hc : c ∈ hop.contacts forms urls) : c.ip = ip := by
  obtain ⟨hname, -, hdialed⟩ := mem_contacts hparse hc
  have hhost := validatedHostPort_host hparse
  have hsame : c.name = (validatedHostPort scheme authority).1 := by
    rw [hname, clientHostPort_name, ← hhost, forms.idna_ascii _ (ascii_of_parseIP hip),
      Option.getD_some]
  rw [hsame, dialedAddrs] at hdialed
  rw [parseIP] at hip
  cases haddr : parseAddr (validatedHostPort scheme authority).1 with
  | none => simp [haddr] at hip
  | some r =>
    obtain ⟨ip', zone⟩ := r
    rw [haddr] at hip hdialed
    cases zone with
    | nil =>
      cases hip
      simpa using hdialed
    | cons a zone => cases hip

/-- A contact for an accepted URL is safe exactly if it is covered. -/
theorem safe_iff_covered (hprivate : p.allowPrivateIp = false)
    (h : p.validateURL forms urls hop.url hop.resolved = true)
    (hparse : urls.parse hop.url = some (scheme, authority)) {c : Contact}
    (hc : c ∈ hop.contacts forms urls) :
    Safe forms p c ↔ CoveredContact forms p hop scheme authority c := by
  constructor
  · intro hsafe
    exact ⟨.inr (.inr hsafe.port), .inr (.inr hsafe.allowed), fun hd => absurd hd hsafe.name⟩
  · intro hcov
    have hacc := accepted_of_validateURL hparse h
    obtain ⟨-, hcport, -⟩ := mem_contacts hparse hc
    have hallowed : p.isIPAccessAllowed c.ip = true := by
      cases hip : parseIP (validatedHostPort scheme authority).1 with
      | some ip =>
        rw [validateURL_literal hparse hip hc]
        exact hacc.ip ip hip
      | none =>
        have hip' := hcov.ip
        rw [hip] at hip'
        rcases hip' with hsome | ⟨hfilter, ips, hips, hmem⟩ | hallowed
        · cases hsome
        · exact hacc.resolved hip hfilter ips hips c.ip hmem
        · exact hallowed
    refine ⟨?_, hallowed, ?_, ?_⟩
    · intro hinternal
      rw [SSRFProtection.isIPAccessAllowed, isPrivateIP_of_internal hinternal, hprivate] at hallowed
      cases hallowed
    · obtain ⟨port, hport, hportAllowed⟩ := hacc.port
      have hform : (splitHostPort authority).isSome ∨ (urlSplit authority).2 = [] →
          p.isAllowedPort c.port = true := by
        intro hform
        rw [clientPort_eq hparse hport hform, hport] at hcport
        cases hcport
        exact hportAllowed
      rcases hcov.port with hsome | hnone | hdirect
      · exact hform (.inl hsome)
      · exact hform (.inr hnone)
      · exact hdirect
    · intro hdenied
      obtain ⟨hnone, hlisted⟩ := hcov.name hdenied
      have hdomain := hacc.domain hnone
      rw [SSRFProtection.isDomainAllowed, hlisted, hdenied.1] at hdomain
      cases hdomain

/-- A URL that is requested has been accepted. -/
theorem accepted_of_mem_requested {setting : FetchSetting} (henabled : setting.enableSSRFProtection)
    (hp : setting.protection = some p) {via : ℕ} {hops : List Hop} {hop : Hop}
    (h : hop ∈ requested forms urls setting via hops) :
    p.validateURL forms urls hop.url hop.resolved = true := by
  induction hops generalizing via with
  | nil => cases h
  | cons hop' hops ih =>
    rw [requested] at h
    split at h
    · cases h
    · rename_i hvalid
      split at h
      · cases h
      · rcases List.mem_cons.1 h with rfl | h
        · have hvalid' : validateURLWithFetchSetting forms urls setting hop.url hop.resolved =
              true := by simpa using hvalid
          rw [validateURLWithFetchSetting, if_neg (by simp [henabled]), hp] at hvalid'
          exact hvalid'
        · exact ih h

/-- **Every contact of a request and its redirects that is covered by what has been validated is
safe.** -/
theorem contacts_safe (forms : NameForms) (urls : UrlParser) {setting : FetchSetting}
    (henabled : setting.enableSSRFProtection = true) (hprivate : setting.allowPrivateIp = false)
    {p : SSRFProtection} (hp : setting.protection = some p) (hops : List Hop) :
    ∀ hop ∈ requested forms urls setting 0 hops, ∀ scheme authority,
      urls.parse hop.url = some (scheme, authority) → ∀ c ∈ hop.contacts forms urls,
        CoveredContact forms p hop scheme authority c → Safe forms p c := by
  intro hop hmem scheme authority hparse c hc hcov
  have hprivate' : p.allowPrivateIp = false := by
    obtain ⟨ports, -, rfl⟩ := Option.map_eq_some_iff.1 hp
    exact hprivate
  have haccepted := accepted_of_mem_requested henabled hp hmem
  exact (safe_iff_covered hprivate' haccepted hparse hc).2 hcov

end Coverage

/-! ### Requests -/

/-- Names in ASCII. -/
def asciiForms : NameForms where
  toLower s := String.ofList (s.toList.map Char.toLower)
  idnaASCII l := if l.all fun c => c.toNat < 128 then some l else none
  idna_ascii l h := if_pos (by simpa [Ascii] using h)

/-- URLs with the scheme `http`. -/
def httpUrls : UrlParser where
  parse s :=
    let authority := (s.toList.drop 7).takeWhile (· ≠ '/')
    if "http://".toList.isPrefixOf s.toList then
      match splitHostPort authority with
      | some (_, port) => if isDigits port then some ("http", authority) else none
      | none => some ("http", authority)
    else none
  port_digits := by
    intro s scheme authority host port hparse hsplit
    simp only at hparse
    split at hparse
    · split at hparse
      · rename_i port' hsplit'
        split at hparse
        · rename_i hdigits
          cases hparse
          rw [hsplit] at hsplit'
          cases hsplit'
          exact hdigits
        · cases hparse
      · rename_i hsplit'
        cases hparse
        rw [hsplit] at hsplit'
        cases hsplit'
    · cases hparse

/-- The default setting, with names that are denied. -/
def denying (domainList : List String) : FetchSetting where
  enableSSRFProtection := true
  allowPrivateIp := false
  domainFilterMode := false
  ipFilterMode := false
  domainList := domainList
  ipList := []
  allowedPorts := ["80", "443"]
  applyIPFilterForDomain := true

def denyingProtection (domainList : List String) : SSRFProtection where
  allowPrivateIp := false
  domainFilterMode := false
  domainList := domainList
  ipFilterMode := false
  ipList := []
  allowedPorts := [80, 443]
  applyIPFilterForDomain := true

theorem denying_protection (domainList : List String) :
    (denying domainList).protection = some (denyingProtection domainList) := by
  have hports : parsePortRanges ["80", "443"] = some [80, 443] := by decide +kernel
  rw [FetchSetting.protection]
  simp only [denying, hports, Option.map_some, denyingProtection]

def publicIp : Ip := Ip.ofV4 (v4 93 184 216 34)

/-- The address in a URL is contacted. -/
theorem contacts_safe_literal :
    Safe asciiForms (denyingProtection []) ⟨"93.184.216.34".toList, publicIp, 80⟩ := by
  refine contacts_safe asciiForms httpUrls rfl rfl (denying_protection [])
    [⟨"http://93.184.216.34/", none, []⟩] ⟨"http://93.184.216.34/", none, []⟩ ?_ "http"
    "93.184.216.34".toList (by decide +kernel) _ (by decide +kernel) ?_
  · have haccepted : validateURLWithFetchSetting asciiForms httpUrls (denying [])
        "http://93.184.216.34/" none = true := by decide +kernel
    simp [requested, haccepted, maxRedirects]
  · refine ⟨.inr (.inl (by decide +kernel)), .inl (by decide +kernel), ?_⟩
    rintro ⟨-, hlisted | hlisted⟩
    · cases hlisted
    · cases hlisted

/-- **Contacts that are not what has been validated**: a name that resolves to the loopback address
when the client dials, a denied name with a dot at its end, and a port behind an address without
brackets, which is validated as the default port. -/
theorem contacts_unsafe :
    let rebinding : List Hop := [⟨"http://a.example/", some [publicIp], [Ip.ofV4 (v4 127 0 0 1)]⟩]
    let dotted : List Hop := [⟨"http://evil.example./", some [publicIp], [publicIp]⟩]
    let port : List Hop := [⟨"http://2606:4700:4700::1111:8080/", none, []⟩]
    (∃ c ∈ contacts asciiForms httpUrls (denying []) rebinding, Internal c.ip) ∧
      (∃ c ∈ contacts asciiForms httpUrls (denying ["evil.example"]) dotted,
        Denied asciiForms (denyingProtection ["evil.example"]) c.name) ∧
      ∃ c ∈ contacts asciiForms httpUrls (denying []) port,
        (denyingProtection []).isAllowedPort c.port = false := by
  intro rebinding dotted port
  have hrebinding : ⟨"a.example".toList, Ip.ofV4 (v4 127 0 0 1), 80⟩ ∈
      contacts asciiForms httpUrls (denying []) rebinding := by decide +kernel
  have hdotted : ⟨"evil.example.".toList, publicIp, 80⟩ ∈
      contacts asciiForms httpUrls (denying ["evil.example"]) dotted := by decide +kernel
  have hport : ⟨"2606:4700:4700::1111".toList, 0x26064700470000000000000000001111#128, 8080⟩ ∈
      contacts asciiForms httpUrls (denying []) port := by decide +kernel
  refine ⟨⟨_, hrebinding, ?_⟩, ⟨_, hdotted, rfl, .inl ?_⟩, ⟨_, hport, ?_⟩⟩
  · exact ⟨.v4 (v4 127 0 0 0) 8, by simp, by decide +kernel⟩
  · decide +kernel
  · decide +kernel

end NewApi
