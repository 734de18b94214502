import AtomicMemory.Core.Python
import AtomicMemory.Lib.AddressBlocks
import AtomicMemory.Lib.UrlSplit

-- The check that every client makes of its URL: its verdict on an IP address is the same for
-- every spelling of the address.

open Inet PyText UrlSplit

namespace AtomicMemory

def allowedSchemes : List (List Char) := ["http".toList, "https".toList]

/-- `_collapse_mapped`. -/
def collapseMapped (ip : IpAddress) : IpAddress :=
  match ipv4Mapped ip with
  | some mapped => .v4 mapped
  | none => ip

/-- `_parse_ip`. -/
def parseIp (host : List Char) : Option IpAddress :=
  match ipAddress host with
  | some ip => some (collapseMapped ip)
  | none => (inetAton host).map .v4

def isNonPublic (ip : IpAddress) : Bool :=
  ip.isLoopback || ip.isPrivate || ip.isReserved || ip.isMulticast || ip.isUnspecified

/-- The URL without the spaces around it, or the text of the `ValueError`. -/
def validateApiUrl (u : Unicode) (value : String) (allowPrivateNetworks : Bool) :
    Except String String :=
  let stripped := strip value
  match urlsplit u stripped with
  | .error message => .error message
  | .ok parsed =>
    if parsed.scheme ∉ allowedSchemes ∨ parsed.netloc = [] then
      .error "api_url must be an http(s) URL"
    else
      match hostname u parsed.netloc with
      | none => .error "api_url must include a host"
      | some host =>
        match parseIp host with
        -- a name is not resolved
        | none => .ok (String.ofList stripped)
        | some ip =>
          if ip.isLinkLocal then
            .error "api_url must not target a link-local or cloud-metadata address"
          else if allowPrivateNetworks = false ∧ isNonPublic ip then
            .error ("api_url must not target a loopback, private, or reserved address; " ++
              "set allow_private_networks=True to permit it")
          else .ok (String.ofList stripped)

def Accepts (u : Unicode) (value : String) (allowPrivateNetworks : Bool) : Prop :=
  ∃ url, validateApiUrl u value allowPrivateNetworks = .ok url

/-- The text that `urlparse` splits. -/
def urlText (value : String) : List Char := cleaned (strip value)

/-- The hosts that stand for an IPv4 address: a name of one to four numbers, or a literal of
the IPv6 address that holds it. -/
inductive Denotes : List Char → Ipv4 → Prop
  | aton {host : List Char} {a : Ipv4} : AtonText 4 host a → Denotes host a
  | mapped {addr zone : List Char} {vs : List ℕ} {scopeId : Option (List Char)} {a : Ipv4} :
      Ipv6Text addr vs → groupsValue vs = 0xffff * 2 ^ 32 + a → ZoneText zone scopeId →
      IsAscii zone → (∀ c ∈ zone, c ∉ ['/', '?', '#', '[', ']', '@']) →
      Denotes ('[' :: (addr ++ zone) ++ [']']) a

theorem denotes_dottedQuad (a : Ipv4) : Denotes (dottedQuad a) a :=
  .aton (atonText_dottedQuad a)

theorem collapseMapped_v4 (a : Ipv4) : collapseMapped (.v4 a) = .v4 a := rfl

theorem parseIp_aton {host : List Char} {a : Ipv4} (h : AtonText 4 host a) :
    parseIp host = some (.v4 a) := by
  unfold parseIp
  split
  · rename_i ip hip
    rw [ipAddress_aton h hip, collapseMapped_v4]
  · rw [inetAton_eq h]
    rfl

theorem parseIp_mapped {addr zone : List Char} {vs : List ℕ} {scopeId : Option (List Char)}
    {a : Ipv4} (h : Ipv6Text addr vs) (hvs : groupsValue vs = 0xffff * 2 ^ 32 + a)
    (hzone : ZoneText zone scopeId) : parseIp (addr ++ zone) = some (.v4 a) := by
  unfold parseIp collapseMapped
  simp only [ipAddress_text h hzone, hvs, ipv4Mapped_eq]

theorem not_mem_delimiters {c : Char} (hc : IsDigit 16 c ∨ c = 'x' ∨ c = 'X' ∨ c = '.') :
    c ∉ ['/', '?', '#', '[', ']', '@', ':', '%'] := by
  have hdelims : ['/', '?', '#', '[', ']', '@', ':', '%'].all fun d =>
      ¬(IsDigit 16 d ∨ d = 'x' ∨ d = 'X' ∨ d = '.') := by
    decide
  intro hmem
  exact of_decide_eq_true (List.all_eq_true.mp hdelims c hmem) hc

theorem lt_of_isDigit {c : Char} (hc : IsDigit 16 c) : c.toNat < 128 := by
  unfold IsDigit digitValue at hc
  split at hc
  · rename_i h
    exact Nat.lt_of_le_of_lt h.2 (by decide : '9'.toNat < 128)
  · split at hc
    · rename_i h
      exact Nat.lt_of_le_of_lt h.2 (by decide : 'f'.toNat < 128)
    · split at hc
      · rename_i h
        exact Nat.lt_of_le_of_lt h.2 (by decide : 'F'.toNat < 128)
      · exact absurd hc (by decide)

theorem isAscii_aton {n : ℕ} {host : List Char} {a : ℕ} (h : AtonText n host a) :
    IsAscii host := by
  intro c hc
  obtain hdigit | rfl | rfl | rfl := h.chars c hc
  · exact lt_of_isDigit hdigit
  all_goals decide

theorem isAscii_ipv6 {addr : List Char} {vs : List ℕ} (h : Ipv6Text addr vs) :
    IsAscii addr := by
  intro c hc
  obtain hdigit | rfl | rfl := h.chars c hc
  · exact lt_of_isDigit hdigit
  all_goals decide

theorem not_delimiter_ipv6 {addr : List Char} {vs : List ℕ} (h : Ipv6Text addr vs) :
    ∀ c ∈ addr, c ∉ ['/', '?', '#', '[', ']', '@'] := by
  intro c hc
  obtain hdigit | rfl | rfl := h.chars c hc
  · intro hmem
    apply not_mem_delimiters (.inl hdigit)
    exact List.mem_append_left [':', '%'] hmem
  all_goals decide

theorem not_mem_ipv6 {addr : List Char} {vs : List ℕ} (h : Ipv6Text addr vs) {c : Char}
    (hc : ¬(IsDigit 16 c ∨ c = ':' ∨ c = '.')) : c ∉ addr :=
  fun hmem => hc (h.chars c hmem)

theorem hostText_aton {host : List Char} {a : Ipv4} (h : AtonText 4 host a) :
    HostText host (host.map Char.toLower) := by
  refine .name ?_ (isAscii_aton h) fun c hc => not_mem_delimiters (h.chars c hc)
  rintro rfl
  have hnone := inetAton_eq h
  cases hnone

theorem hostText_ipv6 {addr zone : List Char} {vs : List ℕ} {scopeId : Option (List Char)}
    (h : Ipv6Text addr vs) (hzone : ZoneText zone scopeId) (hascii : IsAscii zone)
    (hchars : ∀ c ∈ zone, c ∉ ['/', '?', '#', '[', ']', '@']) :
    HostText ('[' :: (addr ++ zone) ++ [']']) (addr.map Char.toLower ++ zone) := by
  refine .literal (ipAddress_text h hzone) ?_ ?_ (not_mem_ipv6 h (by decide)) ?_ ?_
  · intro c hc
    obtain hc | hc := List.mem_append.mp hc
    · exact isAscii_ipv6 h c hc
    · exact hascii c hc
  · intro c hc
    obtain hc | hc := List.mem_append.mp hc
    · exact not_delimiter_ipv6 h c hc
    · exact hchars c hc
  · intro c hc
    cases hzone with
    | none => cases hc
    | some => exact (Option.some.inj hc).symm
  · intro hhead
    cases addr with
    | nil => exact absurd h.mem_colon List.not_mem_nil
    | cons c addr =>
      have hc : c = 'v' := Option.some.inj hhead
      exact not_mem_ipv6 h (c := 'v') (by decide) (hc ▸ List.mem_cons_self)

theorem Denotes.hostText {host : List Char} {a : Ipv4} (h : Denotes host a) :
    ∃ name, HostText host name ∧ parseIp name = some (.v4 a) := by
  cases h with
  | aton haton => exact ⟨_, hostText_aton haton, parseIp_aton haton.map_toLower⟩
  | mapped htext hvs hzone hascii hchars =>
    exact ⟨_, hostText_ipv6 htext hzone hascii hchars, parseIp_mapped htext.map_toLower hvs hzone⟩

def IsBlocked (allowPrivateNetworks : Bool) (ip : IpAddress) : Prop :=
  ip.isLinkLocal ∨ allowPrivateNetworks = false ∧ isNonPublic ip

/-- The verdict on a URL whose host is an address depends on nothing else of the host. -/
theorem accepts_iff (u : Unicode) {frame : UrlFrame} {host name : List Char} {ip : IpAddress}
    {value : String} (hvalue : urlText value = frame.text host) (h : HostText host name)
    (hip : parseIp name = some ip) (allowPrivateNetworks : Bool) :
    Accepts u value allowPrivateNetworks ↔
      frame.scheme.map Char.toLower ∈ allowedSchemes ∧ ¬frame.Expands u ∧
        ¬IsBlocked allowPrivateNetworks ip := by
  have hsplit := urlsplit_text u frame hvalue h
  have hname := hostname_netloc u frame h
  have hnetloc : frame.netloc host ≠ [] := by
    intro hnil
    rw [hnil] at hname
    cases hname
  -- `urlsplit` refuses a host that NFKC makes a delimiter of, before any address is read
  by_cases hexp : frame.Expands u
  · obtain ⟨e, he⟩ := hsplit.2 hexp
    refine iff_of_false ?_ fun hall => hall.2.1 hexp
    rintro ⟨url, hurl⟩
    simp only [validateApiUrl, he] at hurl
    cases hurl
  · obtain ⟨p, hp, hscheme, hloc⟩ := hsplit.1 hexp
    rw [← hscheme]
    unfold Accepts validateApiUrl IsBlocked
    simp only [hp, hloc, hnetloc, hname, hip, or_false]
    by_cases hallowed : p.scheme ∈ allowedSchemes
    · by_cases hlocal : ip.isLinkLocal = true
      · simp [hallowed, hlocal]
      · by_cases hpublic : allowPrivateNetworks = false ∧ isNonPublic ip = true
        · simp [hallowed, hlocal, hpublic]
        · simp [hallowed, hlocal, hpublic, hexp]
    · simp [hallowed]

theorem validateApiUrl_of_strict {u : Unicode} {value url : String}
    (h : validateApiUrl u value false = .ok url) : validateApiUrl u value true = .ok url := by
  unfold validateApiUrl at h ⊢
  cases hsplit : urlsplit u (strip value) with
  | error e =>
    simp only [hsplit] at h
    cases h
  | ok p =>
    simp only [hsplit] at h ⊢
    split at h
    · cases h
    · rename_i hallowed
      rw [if_neg hallowed]
      cases hhost : hostname u p.netloc with
      | none =>
        simp only [hhost] at h
        cases h
      | some host =>
        cases hip : parseIp host with
        | none => simpa only [hhost, hip] using h
        | some ip =>
          simp only [hhost, hip] at h ⊢
          split at h
          · cases h
          · rename_i hlocal
            -- the second check is for strict mode only
            rw [if_neg hlocal, if_neg (by simp)]
            split at h
            · cases h
            · exact h

/-- The verdict on an IPv4 address is one for all its spellings, and none of a link-local
address is accepted. -/
theorem spelling_irrelevant (u : Unicode) (frame : UrlFrame) {host : List Char} {a : Ipv4}
    (h : Denotes host a) {value value' : String} (hvalue : urlText value = frame.text host)
    (hvalue' : urlText value' = frame.text (dottedQuad a)) :
    (∀ allowPrivateNetworks, Accepts u value allowPrivateNetworks ↔
      Accepts u value' allowPrivateNetworks) ∧
    (a.val / 2 ^ 16 = 0xa9fe → ∀ allowPrivateNetworks, ¬Accepts u value allowPrivateNetworks) ∧
    ∀ url, Accepts u url false → Accepts u url true := by
  obtain ⟨name, hname, hip⟩ := h.hostText
  obtain ⟨name', hname', hip'⟩ := (denotes_dottedQuad a).hostText
  refine ⟨?_, ?_, ?_⟩
  · intro allow
    rw [accepts_iff u hvalue hname hip, accepts_iff u hvalue' hname' hip']
  · intro hlocal allow haccepts
    rw [accepts_iff u hvalue hname hip] at haccepts
    exact haccepts.2.2 (.inl ((isLinkLocal_v4 a).mpr hlocal))
  · rintro url ⟨url', hurl'⟩
    exact ⟨url', validateApiUrl_of_strict hurl'⟩

def latestFrame : UrlFrame where
  scheme := "http".toList
  userinfo := none
  port := none
  rest := "/latest".toList
  scheme_head := by decide
  scheme_chars := by decide
  userinfo_chars := by simp
  port_chars := by simp
  rest_head := by simp

/-- The metadata address in octal. -/
theorem spelling_irrelevant_octal :
    (Accepts .ascii "http://0251.0376.0251.0376/latest" true ↔
      Accepts .ascii "http://169.254.169.254/latest" true) ∧
    ¬Accepts .ascii "http://0251.0376.0251.0376/latest" true := by
  have h8 : AllDigits 8 "251".toList := by decide
  have h8' : AllDigits 8 "376".toList := by decide
  have h251 : PartText "0251".toList 169 := @PartText.octal "251".toList h8
  have h376 : PartText "0376".toList 254 := @PartText.octal "376".toList h8'
  have haton : AtonText 4 "0251.0376.0251.0376".toList (0xa9fea9fe : Ipv4) :=
    .cons h251 (by decide) (.cons h376 (by decide) (.cons h251 (by decide)
      (.last h376 (by decide))))
  have hvalue : urlText "http://0251.0376.0251.0376/latest" =
      latestFrame.text "0251.0376.0251.0376".toList := by decide +kernel
  have hvalue' : urlText "http://169.254.169.254/latest" =
      latestFrame.text (dottedQuad 0xa9fea9fe) := by decide +kernel
  have h := spelling_irrelevant .ascii latestFrame (.aton haton) hvalue hvalue'
  exact ⟨h.1 true, h.2.1 (by decide) true⟩

end AtomicMemory
