import IdentityAuthority.Oidc.Egress

/-!
# Egress stays vetted

A production transport connects to public addresses, and to those in the networks that were granted
to exactly its client of its issuer of its tenant. Granted networks are private ones, so nothing
leads to loopback, link-local, translated or documentation addresses.
-/

namespace IdentityAuthority

open Networks

/-- A public address: outside of every blocked range, and for IPv6 inside the global one. -/
def PublicIp (ip : IpAddr) : Prop :=
  match ip with
  | .v4 _ => ∀ net ∈ blockedV4, net.contains ip = false
  | .v6 _ => globalV6.contains ip = true ∧ ∀ net ∈ blockedV6, net.contains ip = false

/-- A permission of exactly this client of this issuer of this tenant has a network with the
address. -/
def HttpOidc.Grants (oidc : HttpOidc) (tenant : Uuid) (issuer clientId : String) (ip : IpAddr) :
    Prop :=
  ∃ grant ∈ oidc.privateAccess, grant.tenant = tenant ∧ grant.issuer = issuer ∧
    grant.clientId = clientId ∧ ∃ network ∈ grant.cidrs, network.contains ip = true

/-- An address that a transport of the client may connect to. -/
def HttpOidc.Vetted (oidc : HttpOidc) (tenant : Uuid) (issuer clientId : String) (ip : IpAddr) :
    Prop :=
  oidc.Grants tenant issuer clientId ip ∨ PublicIp ip

/-- Addresses that nothing may lead to: loopback, link-local (the metadata service among them),
multicast, unspecified, IPv4-mapped, NAT64, 6to4 and documentation. -/
def unreachable : List IpNet :=
  [net4 127 0 0 0 8, net6 [0, 0, 0, 0, 0, 0, 0, 1] 128,
    net4 169 254 0 0 16, net6 [0xfe80] 10,
    net4 224 0 0 0 4, net6 [0xff00] 8,
    net4 0 0 0 0 8, net6 [] 128,
    net6 [0, 0, 0, 0, 0, 0xffff] 96,
    net6 [0x64, 0xff9b] 96, net6 [0x64, 0xff9b, 1] 48,
    net6 [0x2002] 16, net4 192 88 99 0 24,
    net4 192 0 2 0 24, net4 198 51 100 0 24, net4 203 0 113 0 24, net6 [0x2001, 0xdb8] 32,
    net6 [0x3fff] 20]

/-- A network that no permission reaches, and that no public address is in. -/
def excluded (net : IpNet) : Bool :=
  privateParents.all (fun parent => parent.separate net) &&
    match net with
    | .v4 _ => blockedV4.any fun blocked => blocked.containsNet net
    | .v6 _ => net.separate globalV6 || blockedV6.any fun blocked => blocked.containsNet net

section Vetting

variable {ip : IpAddr} {cidrs : List IpNet} {network : IpNet}

/-- What is allowed without loopback: the granted addresses and the public ones. -/
theorem allowed_iff :
    allowed ip false cidrs = true ↔
      (∃ network ∈ cidrs, network.contains ip = true) ∨ PublicIp ip := by
  unfold allowed
  simp only [Bool.false_and, Bool.false_eq_true, if_false]
  by_cases hgranted : (cidrs.any fun network => network.contains ip) = true
  · rw [if_pos hgranted]
    exact iff_of_true rfl (.inl (List.any_eq_true.mp hgranted))
  · rw [if_neg hgranted]
    have hnone : ¬ ∃ network ∈ cidrs, network.contains ip = true :=
      fun h => hgranted (List.any_eq_true.mpr h)
    rw [or_iff_right hnone]
    cases ip with
    | v4 bits => simp [PublicIp]
    | v6 bits =>
      by_cases hglobal : globalV6.contains (.v6 bits) = true
      · simp [PublicIp, hglobal]
      · simp [PublicIp, hglobal]

/-- A private network is a part of one of the networks that may be granted. -/
theorem privateNetwork_within (h : privateNetwork network = true) :
    ∃ parent ∈ privateParents, ∀ ip, network.contains ip = true → parent.contains ip = true := by
  simp only [privateNetwork, Bool.and_eq_true, List.any_eq_true] at h
  obtain ⟨-, parent, hparent, hpart⟩ := h
  exact ⟨parent, hparent, fun _ => IpNet.contains_of_containsNet hpart⟩

/-- The networks that nothing may lead to are excluded. -/
theorem excluded_of_unreachable : ∀ net ∈ unreachable, excluded net = true := by decide

/-- A public address is in no excluded network. -/
theorem not_public_of_excluded (h : excluded network = true) (hip : network.contains ip = true) :
    ¬ PublicIp ip := by
  intro hpublic
  have hrange := (Bool.and_eq_true _ _ ▸ h).2
  cases network with
  | v4 block =>
    cases ip with
    | v4 bits =>
      obtain ⟨blocked, hblocked, hpart⟩ := List.any_eq_true.mp hrange
      have hin := IpNet.contains_of_containsNet hpart hip
      rw [hpublic blocked hblocked] at hin
      cases hin
    | v6 => cases hip
  | v6 block =>
    cases ip with
    | v4 => cases hip
    | v6 bits =>
      rcases Bool.or_eq_true _ _ ▸ hrange with hseparate | hrange
      · have hout := IpNet.not_contains_of_separate hseparate hip
        rw [hpublic.1] at hout
        cases hout
      · obtain ⟨blocked, hblocked, hpart⟩ := List.any_eq_true.mp hrange
        have hin := IpNet.contains_of_containsNet hpart hip
        rw [hpublic.2 blocked hblocked] at hin
        cases hin

/-- A network that may be granted has no address of an excluded one. -/
theorem not_private_of_excluded {granted : IpNet} (h : excluded network = true)
    (hip : network.contains ip = true) (hprivate : privateNetwork granted = true) :
    granted.contains ip = false := by
  obtain ⟨parent, hparent, hwithin⟩ := privateNetwork_within hprivate
  have hall := List.all_eq_true.mp (Bool.and_eq_true _ _ ▸ h).1 parent hparent
  by_contra hin
  rw [Bool.not_eq_false] at hin
  have hout := IpNet.not_contains_of_separate hall (hwithin ip hin)
  rw [hip] at hout
  cases hout

/-- The resolver answers nothing but the whole list it was given, once each address is allowed. -/
theorem resolve_eq_ok {resolver : VettedResolver} {pending : Option (List SocketAddr)}
    {addresses : List SocketAddr} :
    resolver.resolve pending = .ok addresses ↔
      pending = some addresses ∧ addresses ≠ [] ∧
        ∀ a ∈ addresses, allowed a.ip resolver.loopback resolver.cidrs = true := by
  cases pending with
  | none => simp [VettedResolver.resolve]
  | some answers =>
    simp only [VettedResolver.resolve]
    split
    case isTrue hdenied =>
      rw [Bool.or_eq_true, List.isEmpty_iff, List.any_eq_true] at hdenied
      constructor
      · intro h
        cases h
      · rintro ⟨⟨⟩, hne, hall⟩
        obtain hempty | ⟨a, ha, hnot⟩ := hdenied
        · exact absurd hempty hne
        · simp [hall a ha] at hnot
    case isFalse hadmitted =>
      rw [Bool.or_eq_true, List.isEmpty_iff, List.any_eq_true, not_or] at hadmitted
      constructor
      · rintro ⟨⟩
        refine ⟨rfl, hadmitted.1, fun a ha => ?_⟩
        by_contra hnot
        exact hadmitted.2 ⟨a, ha, by simp [hnot]⟩
      · rintro ⟨⟨⟩, -, -⟩
        rfl

end Vetting

section Configuration

variable {reader : UrlReader} {uuids : UuidFormat} {profiles : List TrustedAssuranceProfile}
  {grants : List PrivateProviderAccess} {loopback : Bool} {oidc : HttpOidc}
  {tenant : Uuid} {issuer clientId : String} {ip : IpAddr}

/-- The text of a permission's tenant with its issuer and its client. -/
def PrivateProviderAccess.triple (uuids : UuidFormat) (grant : PrivateProviderAccess) :
    String × String × String :=
  (uuids.text grant.tenant, grant.issuer, grant.clientId)

/-- Permissions that pass the checks have private networks only, and no two are for one client. -/
theorem checkGrants_eq_ok {seen : List (String × String × String)}
    (h : HttpOidc.checkGrants reader uuids seen grants = .ok ()) :
    (∀ grant ∈ grants, ∀ network ∈ grant.cidrs, privateNetwork network = true) ∧
      (grants.map (PrivateProviderAccess.triple uuids)).Nodup ∧
      ∀ triple ∈ grants.map (PrivateProviderAccess.triple uuids), triple ∉ seen := by
  induction grants generalizing seen with
  | nil => simp
  | cons grant rest ih =>
    simp only [HttpOidc.checkGrants] at h
    split at h
    case isTrue => cases h
    case isFalse hadmitted =>
      simp only [Bool.or_eq_true, not_or, List.any_eq_true, not_exists, not_and,
        Bool.not_eq_true', Bool.not_eq_false, List.contains_iff_mem] at hadmitted
      obtain ⟨⟨⟨-, hprivate⟩, -⟩, hunseen⟩ := hadmitted
      cases hissuer : identifierText grant.issuer with
      | error e => simp [hissuer, bind, Except.bind] at h
      | ok =>
        cases hclient : identifierText grant.clientId with
        | error e => simp [hissuer, hclient, bind, Except.bind] at h
        | ok =>
          cases hurl : parseUrl reader grant.issuer false grant.cidrs with
          | error e => simp [hissuer, hclient, hurl, bind, Except.bind] at h
          | ok u =>
            simp only [hissuer, hclient, hurl, bind, Except.bind] at h
            obtain ⟨hrest, hnodup, hfresh⟩ := ih h
            refine ⟨?_, ?_, ?_⟩
            · intro other hother
              rcases List.mem_cons.mp hother with rfl | hother
              · exact hprivate
              · exact hrest other hother
            · rw [List.map_cons, List.nodup_cons]
              exact ⟨fun hmem => hfresh _ hmem List.mem_cons_self, hnodup⟩
            · intro triple htriple
              rcases List.mem_cons.mp (List.map_cons ▸ htriple) with rfl | htriple
              · exact hunseen
              · exact fun hseen => hfresh triple htriple (List.mem_cons_of_mem _ hseen)

/-- What `build` accepts it keeps, and the permissions passed their checks. -/
theorem build_eq_ok (h : HttpOidc.build reader uuids profiles grants loopback = .ok oidc) :
    oidc = { profiles, privateAccess := grants, loopback } ∧
      HttpOidc.checkGrants reader uuids [] grants = .ok () := by
  unfold HttpOidc.build at h
  split at h
  · cases h
  · cases hgrants : HttpOidc.checkGrants reader uuids [] grants with
    | error e => simp [hgrants, bind, Except.bind] at h
    | ok =>
      cases hprofiles : HttpOidc.checkProfiles reader uuids
          { profiles, privateAccess := grants, loopback } [] profiles with
      | error e => simp [hgrants, hprofiles, bind, Except.bind] at h
      | ok =>
        simp only [hgrants, hprofiles, bind, Except.bind, pure, Except.pure, Except.ok.injEq] at h
        exact ⟨h.symm, rfl⟩

theorem isFor_iff {grant : PrivateProviderAccess} :
    grant.isFor tenant issuer clientId = true ↔
      grant.tenant = tenant ∧ grant.issuer = issuer ∧ grant.clientId = clientId := by
  simp [PrivateProviderAccess.isFor, and_assoc]

/-- Two permissions for one client are one, by their triples. -/
theorem eq_of_isFor {grant other : PrivateProviderAccess}
    (hnodup : (grants.map (PrivateProviderAccess.triple uuids)).Nodup) (hgrant : grant ∈ grants)
    (hother : other ∈ grants) (h : grant.isFor tenant issuer clientId = true)
    (h' : other.isFor tenant issuer clientId = true) : grant = other := by
  obtain ⟨rfl, rfl, rfl⟩ := isFor_iff.mp h
  obtain ⟨htenant, hissuer, hclient⟩ := isFor_iff.mp h'
  apply List.inj_on_of_nodup_map hnodup hgrant hother
  simp [PrivateProviderAccess.triple, htenant, hissuer, hclient]

/-- The networks that a transport is given are those granted to its client. -/
theorem mem_privateFor_iff
    (h : HttpOidc.build reader uuids profiles grants loopback = .ok oidc) :
    (∃ network ∈ oidc.privateFor tenant issuer clientId, network.contains ip = true) ↔
      oidc.Grants tenant issuer clientId ip := by
  obtain ⟨rfl, hchecked⟩ := build_eq_ok h
  obtain ⟨-, hnodup, -⟩ := checkGrants_eq_ok hchecked
  simp only [HttpOidc.privateFor, HttpOidc.Grants]
  cases hfound : grants.find? fun grant => grant.isFor tenant issuer clientId with
  | none =>
    constructor
    · rintro ⟨network, hnone, -⟩
      cases hnone
    · rintro ⟨grant, hgrant, htenant, hissuer, hclient, -⟩
      have hfor := isFor_iff.mpr ⟨htenant, hissuer, hclient⟩
      exact absurd hfor (List.find?_eq_none.mp hfound grant hgrant)
  | some grant =>
    have hmem := List.mem_of_find?_eq_some hfound
    have hfor := List.find?_some hfound
    obtain ⟨htenant, hissuer, hclient⟩ := isFor_iff.mp hfor
    constructor
    · intro hin
      exact ⟨grant, hmem, htenant, hissuer, hclient, hin⟩
    · rintro ⟨other, hother, htenant', hissuer', hclient', hin⟩
      have hfor' := isFor_iff.mpr ⟨htenant', hissuer', hclient'⟩
      obtain rfl := eq_of_isFor hnodup hmem hother hfor hfor'
      exact hin

/-- Deployments with the same permissions for a client give its transport the same networks. -/
theorem privateFor_congr {other : HttpOidc} {profiles' : List TrustedAssuranceProfile}
    {grants' : List PrivateProviderAccess} {loopback' : Bool}
    (h : HttpOidc.build reader uuids profiles grants loopback = .ok oidc)
    (h' : HttpOidc.build reader uuids profiles' grants' loopback' = .ok other)
    (hsame : ∀ grant : PrivateProviderAccess, grant.isFor tenant issuer clientId = true →
      (grant ∈ oidc.privateAccess ↔ grant ∈ other.privateAccess)) :
    oidc.privateFor tenant issuer clientId = other.privateFor tenant issuer clientId := by
  obtain ⟨rfl, -⟩ := build_eq_ok h
  obtain ⟨rfl, hchecked⟩ := build_eq_ok h'
  obtain ⟨-, hnodup, -⟩ := checkGrants_eq_ok hchecked
  simp only [HttpOidc.privateFor]
  cases hfound : grants.find? fun grant => grant.isFor tenant issuer clientId with
  | none =>
    have hnone : grants'.find? (fun grant => grant.isFor tenant issuer clientId) = none := by
      apply List.find?_eq_none.mpr
      intro grant hgrant hfor
      exact List.find?_eq_none.mp hfound grant ((hsame grant hfor).mpr hgrant) hfor
    rw [hnone]
  | some grant =>
    have hfor := List.find?_some hfound
    have hmem := (hsame grant hfor).mp (List.mem_of_find?_eq_some hfound)
    cases hfound' : grants'.find? fun grant => grant.isFor tenant issuer clientId with
    | none => exact absurd hfor (List.find?_eq_none.mp hfound' grant hmem)
    | some found =>
      have hmem' := List.mem_of_find?_eq_some hfound'
      have hfor' := List.find?_some hfound'
      rw [eq_of_isFor hnodup hmem hmem' hfor hfor']

end Configuration

section Urls

variable {reader : UrlReader} {value : String} {loopback : Bool} {cidrs : List IpNet}
  {u url : ParsedUrl} {ip : IpAddr}

/-- An accepted URL is one of HTTPS with a host, and an address that it names is allowed. -/
theorem parseUrl_eq_ok (h : parseUrl reader value false cidrs = .ok u) :
    u.scheme = "https" ∧ u.host.isSome = true ∧
      ∀ ip, reader.literal u = some ip → allowed ip false cidrs = true := by
  unfold parseUrl at h
  cases hparsed : reader.parse value with
  | none =>
    rw [hparsed] at h
    cases h
  | some parsed =>
    simp only [hparsed, Bool.false_and, Bool.not_false, Bool.true_and] at h
    split at h
    · cases h
    case isFalse hshape =>
      split at h
      · cases h
      case isFalse hliteral =>
        obtain rfl := Except.ok.inj h
        simp only [Bool.or_eq_true, not_or, decide_eq_true_eq, ne_eq, not_not] at hshape
        obtain ⟨⟨⟨⟨⟨hscheme, hhost⟩, -⟩, -⟩, -⟩, -⟩ := hshape
        constructor
        · exact hscheme
        constructor
        · cases hname : parsed.host with
          | none => simp [hname] at hhost
          | some host => rfl
        · intro ip hip
          rw [hip] at hliteral
          simpa using hliteral

/-- URLs of one origin with a host name the same host. -/
theorem host_eq_of_origin_eq (hscheme : u.scheme = "https") (hhost : u.host.isSome = true)
    (h : url.origin = u.origin) : url.host = u.host := by
  obtain ⟨host, hhost⟩ := Option.isSome_iff_exists.mp hhost
  have horigin : u.origin = some ("https", host, u.port) := by
    simp [ParsedUrl.origin, hscheme, hhost]
  rw [horigin] at h
  unfold ParsedUrl.origin at h
  split at h
  · obtain ⟨name, hname, heq⟩ := Option.map_eq_some_iff.mp h
    rw [hname, hhost]
    simp only [Prod.mk.injEq] at heq
    rw [heq.2.1]
  · cases h

end Urls

section Transports

variable {reader : UrlReader} {uuids : UuidFormat} {oidc : HttpOidc} {tenant : Uuid}
  {issuer clientId redirectUri : String} {transport : Transport} {url : ParsedUrl}
  {pending : Option (List SocketAddr)} {ips : List IpAddr}

/-- A transport talks to the origin of its issuer, through a resolver of its client's networks. -/
theorem transport_eq_ok
    (h : oidc.transport reader tenant issuer clientId redirectUri = .ok transport) :
    ∃ u, parseUrl reader issuer oidc.loopback (oidc.privateFor tenant issuer clientId) = .ok u ∧
      transport.origin = u.origin ∧
      transport.resolver = ⟨oidc.loopback, oidc.privateFor tenant issuer clientId⟩ := by
  unfold HttpOidc.transport at h
  cases hissuer : parseUrl reader issuer oidc.loopback (oidc.privateFor tenant issuer clientId) with
  | error e => simp [hissuer, bind, Except.bind] at h
  | ok u =>
    cases hredirect : parseUrl reader redirectUri oidc.loopback [] with
    | error e => simp [hissuer, hredirect, bind, Except.bind] at h
    | ok u' =>
      simp only [hissuer, hredirect, bind, Except.bind, pure, Except.pure] at h
      obtain rfl := Except.ok.inj h
      exact ⟨u, rfl, rfl, rfl⟩

variable {profiles : List TrustedAssuranceProfile} {grants : List PrivateProviderAccess}
  {addresses : List SocketAddr} {ip : IpAddr}

/-- A production deployment talks to no loopback address. -/
theorem loopback_eq_false (h : HttpOidc.build reader uuids profiles grants false = .ok oidc) :
    oidc.loopback = false := by
  obtain ⟨rfl, -⟩ := build_eq_ok h
  rfl

/-- With the networks of a client, exactly its granted addresses and the public ones are allowed. -/
theorem allowed_privateFor_iff
    (h : HttpOidc.build reader uuids profiles grants false = .ok oidc) :
    allowed ip oidc.loopback (oidc.privateFor tenant issuer clientId) = true ↔
      oidc.Vetted tenant issuer clientId ip := by
  rw [loopback_eq_false h, allowed_iff, mem_privateFor_iff h]
  exact Iff.rfl

/-- Granted networks are parts of those that may be granted. -/
theorem granted_within (h : HttpOidc.build reader uuids profiles grants false = .ok oidc) :
    ∀ grant ∈ oidc.privateAccess, ∀ network ∈ grant.cidrs, privateNetwork network = true := by
  obtain ⟨rfl, hchecked⟩ := build_eq_ok h
  exact (checkGrants_eq_ok hchecked).1

/-- No vetted address is one of an excluded network. -/
theorem not_vetted_of_excluded {network : IpNet}
    (h : HttpOidc.build reader uuids profiles grants false = .ok oidc)
    (hexcluded : excluded network = true) (hip : network.contains ip = true) :
    ¬ oidc.Vetted tenant issuer clientId ip := by
  rintro (⟨grant, hgrant, -, -, -, granted, hgranted, hin⟩ | hpublic)
  · have hprivate := granted_within h grant hgrant granted hgranted
    rw [not_private_of_excluded hexcluded hip hprivate] at hin
    cases hin
  · exact not_public_of_excluded hexcluded hip hpublic

/-- What the resolver of a client yields. -/
theorem resolve_privateFor_iff
    (h : HttpOidc.build reader uuids profiles grants false = .ok oidc) :
    VettedResolver.resolve ⟨oidc.loopback, oidc.privateFor tenant issuer clientId⟩ pending =
        .ok addresses ↔
      pending = some addresses ∧ addresses ≠ [] ∧
        ∀ a ∈ addresses, oidc.Vetted tenant issuer clientId a.ip := by
  rw [resolve_eq_ok]
  simp only [allowed_privateFor_iff h]

/-- An address that an accepted URL names is vetted. -/
theorem vetted_of_literal {value : String} {u : ParsedUrl}
    (h : HttpOidc.build reader uuids profiles grants false = .ok oidc)
    (hurl : parseUrl reader value oidc.loopback (oidc.privateFor tenant issuer clientId) = .ok u)
    (hip : reader.literal u = some ip) : oidc.Vetted tenant issuer clientId ip := by
  rw [← allowed_privateFor_iff h]
  rw [loopback_eq_false h] at hurl ⊢
  exact (parseUrl_eq_ok hurl).2.2 ip hip

/-- A request of a client's transport connects to vetted addresses, and to one at least. -/
theorem vetted_of_addresses
    (h : HttpOidc.build reader uuids profiles grants false = .ok oidc)
    (htransport : oidc.transport reader tenant issuer clientId redirectUri = .ok transport)
    (hips : transport.addresses reader url pending = .ok ips) :
    ips ≠ [] ∧ ∀ ip ∈ ips, oidc.Vetted tenant issuer clientId ip := by
  obtain ⟨u, hissuer, horigin, hresolver⟩ := transport_eq_ok htransport
  unfold Transport.addresses at hips
  split at hips
  · cases hips
  case isFalse hadmitted =>
    simp only [Bool.or_eq_true, not_or, decide_eq_true_eq, ne_eq, not_not] at hadmitted
    rw [horigin] at hadmitted
    cases hliteral : reader.literal url with
    | some ip =>
      simp only [hliteral] at hips
      obtain rfl := Except.ok.inj hips
      constructor
      · exact List.cons_ne_nil ip []
      · intro ip' hip'
        obtain rfl := List.mem_singleton.mp hip'
        -- The URL has the host of the issuer, whose address was vetted when it was parsed.
        have hparsed := hissuer
        rw [loopback_eq_false h] at hparsed
        obtain ⟨hscheme, hhost, -⟩ := parseUrl_eq_ok hparsed
        have hsame := host_eq_of_origin_eq hscheme hhost hadmitted.1.1
        apply vetted_of_literal h hissuer
        rw [← hliteral, UrlReader.literal, UrlReader.literal, hsame]
    | none =>
      simp only [hliteral, hresolver] at hips
      cases hanswers : VettedResolver.resolve
          ⟨oidc.loopback, oidc.privateFor tenant issuer clientId⟩ pending with
      | error e =>
        rw [hanswers] at hips
        cases hips
      | ok answers =>
        rw [hanswers] at hips
        obtain rfl := Except.ok.inj hips
        obtain ⟨-, hne, hvetted⟩ := (resolve_privateFor_iff h).mp hanswers
        constructor
        · simpa using hne
        · intro ip hip
          obtain ⟨a, ha, rfl⟩ := List.mem_map.mp hip
          exact hvetted a ha

end Transports

/-- What every accepted configuration of a production deployment guarantees of its egress. -/
structure EgressVetted (reader : UrlReader) (uuids : UuidFormat) (oidc : HttpOidc) : Prop where
  /-- Each network of a permission is a part of one that may be granted. -/
  within : ∀ grant ∈ oidc.privateAccess, ∀ network ∈ grant.cidrs,
    ∃ parent ∈ privateParents, ∀ ip, network.contains ip = true → parent.contains ip = true
  /-- The resolver yields an answer exactly if it is not empty and all of it vetted, and all of it. -/
  resolves : ∀ tenant issuer clientId pending addresses,
    VettedResolver.resolve ⟨oidc.loopback, oidc.privateFor tenant issuer clientId⟩ pending =
        .ok addresses ↔
      pending = some addresses ∧ addresses ≠ [] ∧
        ∀ a ∈ addresses, oidc.Vetted tenant issuer clientId a.ip
  /-- An address that an accepted URL names as its host is vetted. -/
  literal : ∀ tenant issuer clientId value u ip,
    parseUrl reader value oidc.loopback (oidc.privateFor tenant issuer clientId) = .ok u →
      reader.literal u = some ip → oidc.Vetted tenant issuer clientId ip
  /-- A request connects to vetted addresses only, whatever its URL and the answer. -/
  connects : ∀ tenant issuer clientId redirectUri transport url pending ips,
    oidc.transport reader tenant issuer clientId redirectUri = .ok transport →
      transport.addresses reader url pending = .ok ips →
        ips ≠ [] ∧ ∀ ip ∈ ips, oidc.Vetted tenant issuer clientId ip
  /-- No vetted address is in a network that nothing may lead to. -/
  never : ∀ tenant issuer clientId ip, oidc.Vetted tenant issuer clientId ip →
    ∀ network ∈ unreachable, network.contains ip = false
  /-- The permissions of other clients, issuers and tenants make no difference. -/
  own : ∀ tenant issuer clientId profiles' grants' other,
    HttpOidc.build reader uuids profiles' grants' false = .ok other →
      (∀ grant : PrivateProviderAccess, grant.isFor tenant issuer clientId = true →
        (grant ∈ oidc.privateAccess ↔ grant ∈ other.privateAccess)) →
          ∀ ip, oidc.Vetted tenant issuer clientId ip ↔ other.Vetted tenant issuer clientId ip

/-- Every configuration that a production deployment accepts keeps its egress vetted. -/
theorem egress_vetted (reader : UrlReader) (uuids : UuidFormat)
    (profiles : List TrustedAssuranceProfile) (grants : List PrivateProviderAccess)
    (oidc : HttpOidc) (h : HttpOidc.build reader uuids profiles grants false = .ok oidc) :
    EgressVetted reader uuids oidc := by
  constructor
  case within =>
    intro grant hgrant network hnetwork
    exact privateNetwork_within (granted_within h grant hgrant network hnetwork)
  case resolves =>
    intro tenant issuer clientId pending addresses
    exact resolve_privateFor_iff h
  case literal =>
    intro tenant issuer clientId value u ip hurl hip
    exact vetted_of_literal h hurl hip
  case connects =>
    intro tenant issuer clientId redirectUri transport url pending ips htransport hips
    exact vetted_of_addresses h htransport hips
  case never =>
    intro tenant issuer clientId ip hvetted network hnetwork
    by_contra hin
    rw [Bool.not_eq_false] at hin
    exact not_vetted_of_excluded h (excluded_of_unreachable network hnetwork) hin hvetted
  case own =>
    intro tenant issuer clientId profiles' grants' other h' hsame ip
    rw [← allowed_privateFor_iff h, ← allowed_privateFor_iff h', privateFor_congr h h' hsame]
    obtain ⟨rfl, -⟩ := build_eq_ok h
    obtain ⟨rfl, -⟩ := build_eq_ok h'
    exact Iff.rfl

/-- A reader that knows one issuer. -/
def issuerReader : UrlReader where
  parse value := if value = "https://idp.test" then
    some ⟨"https", some "idp.test", 443, "", none, none, none⟩ else none
  readIp _ := none

/-- A permission for a client of that issuer. -/
def issuerAccess : PrivateProviderAccess :=
  ⟨.newV4 0, "https://idp.test", "app", [net4 10 42 0 0 16, net6 [0xfd12] 16]⟩

/-- The deployment with this permission is accepted, so its egress is vetted. -/
theorem issuerAccess_vetted :
    EgressVetted issuerReader .hyphenated ⟨[], [issuerAccess], false⟩ :=
  egress_vetted issuerReader .hyphenated [] [issuerAccess] ⟨[], [issuerAccess], false⟩
    rfl

end IdentityAuthority
