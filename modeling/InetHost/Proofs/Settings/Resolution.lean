import InetHost.Proofs.Settings.Address
import InetHost.Settings.Listing

/-! The settings of a host, and what a document makes of each. A setting has what the document gives for its key
if that is of the right type, and its default otherwise; for an address this is a text, and the setting has the
address that the text stands for. Resolving a document gives these values, or names the first setting whose
text does not stand for an address. -/

namespace InetHost.Settings

open Sequence

def Value.Sets (document : Value) (heading key : String) (value : Value) : Prop :=
  ∃ entries section_, document = table entries ∧ entries.lookup heading = some (table section_) ∧
    section_.lookup key = some value

/-- What a document has for a key if that is of the right type, and else the default. -/
def Takes {α : Type} (type : α → Value) (document : Value) (heading key : String) (default value : α) : Prop :=
  document.Sets heading key (type value) ∨
    value = default ∧ ∀ other, ¬document.Sets heading key (type other)

section Document

variable {document value : Value} {heading key : String}

theorem Value.get?_eq_some_iff :
    document.get? key = some value ↔ ∃ entries, document = table entries ∧ entries.lookup key = some value := by
  constructor
  · intro h
    cases document with
    | table entries => exact ⟨entries, rfl, h⟩
    | _ => cases h
  · rintro ⟨entries, rfl, h⟩
    exact h

theorem Value.setting?_eq_some_iff :
    document.setting? heading key = some value ↔ document.Sets heading key value := by
  simp only [setting?, Option.bind_eq_some_iff, get?_eq_some_iff]
  constructor
  · rintro ⟨_, ⟨entries, rfl, hs⟩, section_, rfl, hv⟩
    exact ⟨entries, section_, rfl, hs, hv⟩
  · rintro ⟨entries, section_, rfl, hs, hv⟩
    exact ⟨_, ⟨entries, rfl, hs⟩, section_, rfl, hv⟩

variable {α : Type} {type : α → Value} {read : Value → Option α} {default v : α}

theorem getD_bind_eq_iff (hread : ∀ value v, read value = some v ↔ value = type v) :
    ((document.setting? heading key).bind read).getD default = v ↔
      Takes type document heading key default v := by
  have hsome (w : α) :
      (document.setting? heading key).bind read = some w ↔ document.Sets heading key (type w) := by
    simp only [Option.bind_eq_some_iff, hread, exists_eq_right, Value.setting?_eq_some_iff]
  simp only [Takes, ← hsome]
  cases (document.setting? heading key).bind read with
  | none =>
    refine ⟨fun h => .inr ⟨h.symm, fun _ => nofun⟩, fun h => ?_⟩
    rcases h with h | ⟨rfl, -⟩
    · cases h
    · rfl
  | some w =>
    refine ⟨fun h => .inl (congrArg some h), fun h => ?_⟩
    rcases h with h | ⟨-, h⟩
    · exact Option.some.inj h
    · exact absurd rfl (h w)

theorem integerOr_eq_iff {default n : Int} : document.integerOr heading key default = n ↔
    Takes .integer document heading key default n := by
  refine getD_bind_eq_iff fun value n => ?_
  cases value with
  | integer _ => rw [Value.integer?, Option.some.injEq, Value.integer.injEq]
  | _ => exact iff_of_false nofun nofun

theorem textOr_eq_iff {default text : String} : document.textOr heading key default = text ↔
    Takes .text document heading key default text := by
  refine getD_bind_eq_iff fun value text => ?_
  cases value with
  | text _ => rw [Value.text?, Option.some.injEq, Value.text.injEq]
  | _ => exact iff_of_false nofun nofun

end Document

inductive Kind
  | integer (default : Int)
  | ipv4 (default : String)
  | mac (default : String)

structure Setting where
  constant : String
  type : String
  heading : String
  key : String
  kind : Kind

def settings : List Setting :=
  [⟨"ETH_MTU", "usize", network, "eth_mtu", .integer 1500⟩,
    ⟨"IP_DEFAULT_TTL", "u8", network, "ip_default_ttl", .integer 64⟩,
    ⟨"ARP_CACHE_SIZE", "usize", network, "arp_cache_size", .integer 16⟩,
    ⟨"UDP_SOCKET_TABLE_SIZE", "usize", network, "udp_socket_table_size", .integer 8⟩,
    ⟨"TCP_SOCKET_TABLE_SIZE", "usize", network, "tcp_socket_table_size", .integer 16⟩,
    ⟨"UDP_RECV_BUF_SIZE", "usize", network, "udp_recv_buf_size", .integer 512⟩,
    ⟨"TCP_RECV_BUF_SIZE", "usize", network, "tcp_recv_buf_size", .integer 4096⟩,
    ⟨"DEFAULT_IP", "u32", network, "default_ip", .ipv4 "10.0.0.1"⟩,
    ⟨"DEFAULT_GATEWAY", "u32", network, "default_gateway", .ipv4 "10.0.0.2"⟩,
    ⟨"DEFAULT_NETMASK", "u32", network, "default_netmask", .ipv4 "255.255.255.0"⟩,
    ⟨"DEFAULT_DNS_SERVER", "u32", network, "default_dns_server", .ipv4 "8.8.8.8"⟩,
    ⟨"DEFAULT_MAC", "[u8; 6]", network, "default_mac", .mac "52:54:00:12:34:56"⟩,
    ⟨"ARP_RESOLVE_TIMEOUT_MS", "u64", timeouts, "arp_resolve_ms", .integer 1000⟩,
    ⟨"ICMP_REPLY_ARP_TIMEOUT_MS", "u64", timeouts, "icmp_reply_arp_ms", .integer 500⟩,
    ⟨"PING_TIMEOUT_MS", "u64", timeouts, "ping_ms", .integer 3000⟩,
    ⟨"TCP_CONNECT_TIMEOUT_MS", "u64", timeouts, "tcp_connect_ms", .integer 5000⟩,
    ⟨"DNS_TIMEOUT_MS", "u64", timeouts, "dns_ms", .integer 3000⟩]

namespace Setting

/-- The value that a setting has by a document. -/
inductive Resolves (document : Value) (s : Setting) : Literal → Prop
  | integer {default n : Int} :
      s.kind = .integer default → Takes .integer document s.heading s.key default n →
      Resolves document s (.integer n)
  | ipv4 {default text : String} {ip : Ipv4.Address} :
      s.kind = .ipv4 default → Takes .text document s.heading s.key default text →
      List.Forall₂ (IsOctet 10) (text.toList.splitOn '.') (Bytes.word32 ip) →
      Resolves document s (.word ip)
  | mac {default text : String} {mac : Mac} :
      s.kind = .mac default → Takes .text document s.heading s.key default text →
      List.Forall₂ (IsOctet 16) (text.toList.splitOn ':') mac.bytes →
      Resolves document s (.octets mac)

inductive Malformed (document : Value) (s : Setting) : SettingError → Prop
  | ipv4 {default text : String} :
      s.kind = .ipv4 default → Takes .text document s.heading s.key default text →
      (∀ ip, ¬List.Forall₂ (IsOctet 10) (text.toList.splitOn '.') (Bytes.word32 ip)) →
      Malformed document s (.malformedIpv4 s.key text)
  | mac {default text : String} :
      s.kind = .mac default → Takes .text document s.heading s.key default text →
      (∀ mac : Mac, ¬List.Forall₂ (IsOctet 16) (text.toList.splitOn ':') mac.bytes) →
      Malformed document s (.malformedMac s.key text)

def value (document : Value) (s : Setting) : Except SettingError Literal :=
  match s.kind with
  | .integer default => .ok (.integer (document.integerOr s.heading s.key default))
  | .ipv4 default =>
    let text := document.textOr s.heading s.key default
    match ipv4? text with
    | some ip => .ok (.word ip)
    | none => .error (.malformedIpv4 s.key text)
  | .mac default =>
    let text := document.textOr s.heading s.key default
    match mac? text with
    | some mac => .ok (.octets mac)
    | none => .error (.malformedMac s.key text)

variable {document : Value} {s : Setting} {v w : Literal} {e : SettingError}

theorem value_spec (document : Value) (s : Setting) :
    (∃ v, s.value document = .ok v ∧ s.Resolves document v) ∨
      ∃ e, s.value document = .error e ∧ s.Malformed document e := by
  unfold value
  cases hkind : s.kind with
  | integer default => exact .inl ⟨_, rfl, .integer hkind (integerOr_eq_iff.1 rfl)⟩
  | ipv4 default =>
    have htext := textOr_eq_iff.1 (rfl : document.textOr s.heading s.key default = _)
    cases hip : ipv4? (document.textOr s.heading s.key default) with
    | none =>
      refine .inr ⟨_, by simp only [hip], .ipv4 hkind htext fun ip hoctets => ?_⟩
      rw [ipv4?_eq_some_iff.2 hoctets] at hip
      cases hip
    | some ip => exact .inl ⟨_, by simp only [hip], .ipv4 hkind htext (ipv4?_eq_some_iff.1 hip)⟩
  | mac default =>
    have htext := textOr_eq_iff.1 (rfl : document.textOr s.heading s.key default = _)
    cases hmac : mac? (document.textOr s.heading s.key default) with
    | none =>
      refine .inr ⟨_, by simp only [hmac], .mac hkind htext fun mac hoctets => ?_⟩
      rw [mac?_eq_some_iff.2 hoctets] at hmac
      cases hmac
    | some mac => exact .inl ⟨_, by simp only [hmac], .mac hkind htext (mac?_eq_some_iff.1 hmac)⟩

theorem Resolves.value_eq (h : s.Resolves document v) : s.value document = .ok v := by
  unfold value
  cases h with
  | integer hkind htakes => rw [hkind, ← integerOr_eq_iff.2 htakes]
  | ipv4 hkind htakes hoctets =>
    simp only [hkind, textOr_eq_iff.2 htakes, ipv4?_eq_some_iff.2 hoctets]
  | mac hkind htakes hoctets =>
    simp only [hkind, textOr_eq_iff.2 htakes, mac?_eq_some_iff.2 hoctets]

theorem Malformed.value_eq (h : s.Malformed document e) : s.value document = .error e := by
  unfold value
  cases h with
  | ipv4 hkind htakes hnone =>
    rename_i text
    have hip : ipv4? text = none := Option.eq_none_iff_forall_not_mem.2 fun ip hm =>
      hnone ip (ipv4?_eq_some_iff.1 hm)
    simp only [hkind, textOr_eq_iff.2 htakes, hip]
  | mac hkind htakes hnone =>
    rename_i text
    have hmac : mac? text = none := Option.eq_none_iff_forall_not_mem.2 fun mac hm =>
      hnone mac (mac?_eq_some_iff.1 hm)
    simp only [hkind, textOr_eq_iff.2 htakes, hmac]

theorem value_eq_ok_iff : s.value document = .ok v ↔ s.Resolves document v := by
  refine ⟨fun h => ?_, Resolves.value_eq⟩
  rcases s.value_spec document with ⟨w, hw, hr⟩ | ⟨e, he, -⟩
  · rwa [← Except.ok.inj (hw.symm.trans h)]
  · cases he.symm.trans h

theorem value_eq_error_iff : s.value document = .error e ↔ s.Malformed document e := by
  refine ⟨fun h => ?_, Malformed.value_eq⟩
  rcases s.value_spec document with ⟨w, hw, -⟩ | ⟨e', he, hm⟩
  · cases hw.symm.trans h
  · rwa [← Except.error.inj (he.symm.trans h)]

theorem Resolves.unique (hv : s.Resolves document v) (hw : s.Resolves document w) : v = w :=
  Except.ok.inj (hv.value_eq.symm.trans hw.value_eq)

theorem exists_value_iff : (∃ v, s.value document = .ok v) ↔ ∀ e, ¬s.Malformed document e := by
  constructor
  · rintro ⟨v, hv⟩ e he
    cases hv.symm.trans he.value_eq
  · intro h
    rcases s.value_spec document with ⟨v, hv, -⟩ | ⟨e, -, he⟩
    · exact ⟨v, hv⟩
    · exact absurd he (h e)

end Setting

def Resolved.groups (r : Resolved) : List Group := [r.sizes, r.addresses, r.waits]

def Resolved.definitions (r : Resolved) : List Definition := r.groups.flatMap Group.definitions

def Resolved.literals (r : Resolved) : List Literal := r.definitions.map Definition.value

theorem Resolved.literals_injective {r r' : Resolved} (h : r.literals = r'.literals) : r = r' := by
  cases r
  cases r'
  cases h
  rfl

variable {document : Value} {r : Resolved} {e : SettingError}

theorem map_literals_resolve (document : Value) :
    (resolve document).map Resolved.literals = settings.mapM (Setting.value document) := by
  have hipv4 (constant key default : String) :
      Setting.value document ⟨constant, "u32", network, key, .ipv4 default⟩ =
        (ipv4Or document key default).map Literal.word := by
    simp only [Setting.value, ipv4Or]
    cases ipv4? (document.textOr network key default) <;> rfl
  have hmac (constant key default : String) :
      Setting.value document ⟨constant, "[u8; 6]", network, key, .mac default⟩ =
        (macOr document key default).map Literal.octets := by
    simp only [Setting.value, macOr]
    cases mac? (document.textOr network key default) <;> rfl
  simp only [settings, List.mapM_cons, List.mapM_nil, hipv4, hmac, resolve]
  cases ipv4Or document "default_ip" "10.0.0.1" with
  | error e => rfl
  | ok ip =>
    cases ipv4Or document "default_gateway" "10.0.0.2" with
    | error e => rfl
    | ok gateway =>
      cases ipv4Or document "default_netmask" "255.255.255.0" with
      | error e => rfl
      | ok netmask =>
        cases ipv4Or document "default_dns_server" "8.8.8.8" with
        | error e => rfl
        | ok dnsServer => cases macOr document "default_mac" "52:54:00:12:34:56" <;> rfl

theorem resolves_literals (h : resolve document = .ok r) :
    List.Forall₂ (Setting.Resolves document) settings r.literals := by
  have hvalues : settings.mapM (Setting.value document) = .ok r.literals := by
    rw [← map_literals_resolve, h]
    rfl
  exact (mapM_eq_ok_iff.1 hvalues).imp fun _ _ => Setting.value_eq_ok_iff.1

/-- The first setting whose text does not stand for an address, as the error names it. -/
def FirstMalformed (document : Value) (e : SettingError) : Prop :=
  ∃ before s after, settings = before ++ s :: after ∧
    (∀ s' ∈ before, ∀ e', ¬s'.Malformed document e') ∧ s.Malformed document e

theorem resolve_eq_error_iff : resolve document = .error e ↔ FirstMalformed document e := by
  rw [← map_eq_error_iff (g := Resolved.literals), map_literals_resolve, mapM_eq_error_iff]
  simp only [Setting.exists_value_iff, Setting.value_eq_error_iff, FirstMalformed]

theorem exists_resolve_iff :
    (∃ r, resolve document = .ok r) ↔ ∀ s ∈ settings, ∀ e, ¬s.Malformed document e := by
  constructor
  · rintro ⟨r, hr⟩
    have hvalues := (resolves_literals hr).imp fun s v hv =>
      And.intro (Setting.exists_value_iff.1 ⟨v, hv.value_eq⟩) trivial
    exact ((List.forall₂_and_left _ _).1 hvalues).1
  · intro h
    cases hr : resolve document with
    | error e =>
      obtain ⟨before, s, after, hs, -, hm⟩ := resolve_eq_error_iff.1 hr
      exact absurd hm (h s (hs ▸ List.mem_append_right before List.mem_cons_self) e)
    | ok r => exact ⟨r, rfl⟩

end InetHost.Settings
