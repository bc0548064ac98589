/-
  The order in which suites and groups are offered.

  Both loops push what is new by its identity: first what is preferred, then the defaults.  The
  result is a merge (`mergedBy`): the first mentions, then the defaults that were not mentioned
  (`orderTls13CipherSuites_eq`, `orderKxGroups_eq`).

  `rustls` is not modelled: a suite is whatever has an IANA id, and three of them are those of
  `ring` under TLS 1.3.
-/
import Basecrawl.Lib.Distinct

namespace Basecrawl.Core

open Distinct

/-! ## Program -/

/-- The suites of `rustls`, and three statics of its `ring` provider. -/
structure CipherSuites (Suite : Type) where
  suite : Suite → UInt16
  tls13Aes256GcmSha384 : Suite
  tls13Aes128GcmSha256 : Suite
  tls13Chacha20Poly1305Sha256 : Suite

variable {Suite : Type} (rustls : CipherSuites Suite)

/-- `suite_id`. -/
def CipherSuites.suiteId (suite : Suite) : UInt16 := rustls.suite suite

/-- The suite of a preferred name. -/
def CipherSuites.named (name : String) : Option Suite :=
  if name = "TLS13_AES_256_GCM_SHA384" then some rustls.tls13Aes256GcmSha384
  else if name = "TLS13_AES_128_GCM_SHA256" then some rustls.tls13Aes128GcmSha256
  else if name = "TLS13_CHACHA20_POLY1305_SHA256" then some rustls.tls13Chacha20Poly1305Sha256
  else none

/-- One turn of the loop over the preferred names. -/
def pushNamed {α κ : Type} [DecidableEq κ] (key : α → κ) (named : String → Option α)
    (ordered : List α) (name : String) : List α :=
  match named name with
  | some found => pushNew key ordered found
  | none => ordered

/-- `order_tls13_cipher_suites`. -/
def orderTls13CipherSuites (defaultSuites : List Suite) (preferredNames : List String) :
    List Suite :=
  let ordered := preferredNames.foldl (pushNamed rustls.suiteId rustls.named) []
  let ordered := defaultSuites.foldl (pushNew rustls.suiteId) ordered
  if ordered.isEmpty then defaultSuites else ordered

/-- The groups of the `ring` provider. -/
inductive KxGroup where
  | x25519
  | secp256r1
  | secp384r1
deriving DecidableEq

/-- `SupportedKxGroup::name`, as the number of the `NamedGroup`. -/
def KxGroup.name : KxGroup → UInt16
  | .x25519 => 0x001d
  | .secp256r1 => 0x0017
  | .secp384r1 => 0x0018

/-- The group of a preferred name. -/
def KxGroup.named (name : String) : Option KxGroup :=
  if name = "X25519" then some .x25519
  else if name = "secp256r1" then some .secp256r1
  else if name = "secp384r1" then some .secp384r1
  else none

/-- The groups in the order of the provider. -/
def supportedKxGroups : List KxGroup := [.x25519, .secp256r1, .secp384r1]

/-- `order_kx_groups`. -/
def orderKxGroups (preferred : List String) : List KxGroup :=
  let ordered := preferred.foldl (pushNamed KxGroup.name KxGroup.named) []
  if ordered.isEmpty then supportedKxGroups
  else supportedKxGroups.foldl (pushNew KxGroup.name) ordered

/-- What the provider offers. -/
structure CryptoProvider (Suite : Type) where
  cipherSuites : List Suite
  kxGroups : List KxGroup

/-- The provider of `tls_config`: an order that is not asked for is left as it is. -/
def CryptoProvider.preferring (provider : CryptoProvider Suite) (tls13CipherNames : List String)
    (tlsGroupOrder : List String) : CryptoProvider Suite where
  cipherSuites :=
    if tls13CipherNames.isEmpty then provider.cipherSuites
    else orderTls13CipherSuites rustls provider.cipherSuites tls13CipherNames
  kxGroups :=
    if tlsGroupOrder.isEmpty then provider.kxGroups else orderKxGroups tlsGroupOrder

/-! ## The merges -/

/-- Names that name nothing are passed over. -/
theorem foldl_pushNamed {α κ : Type} [DecidableEq κ] (key : α → κ) (named : String → Option α)
    (names : List String) (ordered : List α) :
    names.foldl (pushNamed key named) ordered =
      collectNew key ordered (names.filterMap named) := by
  induction names generalizing ordered with
  | nil => rfl
  | cons name names ih =>
    rw [List.foldl_cons, ih, pushNamed]
    cases hnamed : named name with
    | none => rw [List.filterMap_cons_none hnamed]
    | some found =>
      rw [List.filterMap_cons_some hnamed]
      rfl

/-- What is preferred, in the order of first mention. -/
theorem foldl_pushNamed_nil {α κ : Type} [DecidableEq κ] (key : α → κ)
    (named : String → Option α) (names : List String) :
    names.foldl (pushNamed key named) [] = firsts key (names.filterMap named) := by
  rw [foldl_pushNamed, collectNew_eq, List.nil_append]
  exact List.filter_eq_self.mpr fun _ _ => decide_eq_true List.not_mem_nil

section

variable {α κ : Type} [DecidableEq κ] (key : α → κ) (preferred : List α) {defaults : List α}

/-- What is preferred, by first mention, and the defaults that were not mentioned. -/
def mergedBy (defaults : List α) : List α :=
  firsts key preferred ++ defaults.filter fun d => decide (key d ∉ preferred.map key)

/-- The loop over defaults that repeat nothing makes a merge. -/
theorem foldl_pushNew (hdefaults : (defaults.map key).Nodup) :
    defaults.foldl (pushNew key) (firsts key preferred) = mergedBy key preferred defaults := by
  show collectNew key (firsts key preferred) defaults = mergedBy key preferred defaults
  rw [collectNew_eq, firsts_of_nodup hdefaults, mergedBy]
  simp only [mem_keys_firsts]

/-- Where nothing is preferred, a merge is the defaults: the fallback of the source. -/
theorem mergedBy_of_firsts_eq_nil (h : firsts key preferred = []) :
    mergedBy key preferred defaults = defaults := by
  have hkeys : preferred.map key = [] := by
    refine List.eq_nil_iff_forall_not_mem.mpr fun k hk => ?_
    have hin := mem_keys_firsts.mpr hk
    rw [h] at hin
    cases hin
  rw [mergedBy, h, hkeys, List.nil_append]
  exact List.filter_eq_self.mpr fun _ _ => decide_eq_true List.not_mem_nil

/-- A merge repeats no key. -/
theorem nodup_mergedBy (hdefaults : (defaults.map key).Nodup) :
    ((mergedBy key preferred defaults).map key).Nodup := by
  rw [← foldl_pushNew key preferred hdefaults]
  exact nodup_collectNew (nodup_firsts preferred)

/-- A merge has the key of every default. -/
theorem mem_mergedBy {d : α} (hdefaults : (defaults.map key).Nodup) (hd : d ∈ defaults) :
    key d ∈ (mergedBy key preferred defaults).map key := by
  rw [← foldl_pushNew key preferred hdefaults]
  exact mem_keys_collectNew.mpr (Or.inr (List.mem_map_of_mem hd))

end

/-- **The suites** are a merge. -/
theorem orderTls13CipherSuites_eq {defaultSuites : List Suite}
    (hdefaults : (defaultSuites.map rustls.suiteId).Nodup) (preferredNames : List String) :
    orderTls13CipherSuites rustls defaultSuites preferredNames =
      mergedBy rustls.suiteId (preferredNames.filterMap rustls.named) defaultSuites := by
  unfold orderTls13CipherSuites
  dsimp only
  rw [foldl_pushNamed_nil, foldl_pushNew _ _ hdefaults]
  split
  · -- only when there is no default either
    rename_i hempty
    have hnone := List.isEmpty_iff.mp hempty
    rw [mergedBy_of_firsts_eq_nil _ _ (List.append_eq_nil_iff.mp hnone).1]
  · rfl

/-- **The groups** are one, too. -/
theorem orderKxGroups_eq (preferred : List String) :
    orderKxGroups preferred =
      mergedBy KxGroup.name (preferred.filterMap KxGroup.named) supportedKxGroups := by
  unfold orderKxGroups
  dsimp only
  rw [foldl_pushNamed_nil]
  split
  · rename_i hempty
    rw [mergedBy_of_firsts_eq_nil _ _ (List.isEmpty_iff.mp hempty)]
  · exact foldl_pushNew _ _ (by decide)

theorem KxGroup.name_injective : Function.Injective KxGroup.name := by
  intro group other hname
  cases group <;> cases other <;> first | rfl | exact absurd hname (by decide)

theorem KxGroup.mem_supported (group : KxGroup) : group ∈ supportedKxGroups := by
  cases group <;> decide

/-- The groups are all there, and once each. -/
theorem orderKxGroups_perm (preferred : List String) :
    (orderKxGroups preferred).Perm supportedKxGroups := by
  have hnodup : (orderKxGroups preferred).Nodup := by
    rw [orderKxGroups_eq]
    exact (nodup_mergedBy _ _ (by decide)).of_map
  refine (List.perm_ext_iff_of_nodup hnodup (by decide)).mpr fun group => ?_
  refine iff_of_true ?_ (KxGroup.mem_supported group)
  have hname : group.name ∈ (orderKxGroups preferred).map KxGroup.name := by
    rw [orderKxGroups_eq]
    exact mem_mergedBy _ _ (by decide) (KxGroup.mem_supported group)
  obtain ⟨other, hother, heq⟩ := List.mem_map.mp hname
  exact KxGroup.name_injective heq ▸ hother

/-- **What a connection offers**: whatever the names, each suite of the provider by its id, and
    each group of the provider. -/
theorem CryptoProvider.preferring_offers {provider : CryptoProvider Suite}
    (hsuites : (provider.cipherSuites.map rustls.suiteId).Nodup)
    (hgroups : provider.kxGroups = supportedKxGroups)
    (tls13CipherNames tlsGroupOrder : List String) :
    (∀ suite ∈ provider.cipherSuites, rustls.suiteId suite ∈
        (provider.preferring rustls tls13CipherNames tlsGroupOrder).cipherSuites.map
          rustls.suiteId) ∧
      (provider.preferring rustls tls13CipherNames tlsGroupOrder).kxGroups.Perm
        provider.kxGroups := by
  constructor
  · intro suite hsuite
    unfold preferring
    dsimp only
    split
    · exact List.mem_map_of_mem hsuite
    · rw [orderTls13CipherSuites_eq rustls hsuites]
      exact mem_mergedBy _ _ hsuites hsuite
  · unfold preferring
    dsimp only
    split
    · exact List.Perm.refl _
    · exact hgroups ▸ orderKxGroups_perm tlsGroupOrder

/-! ## Nothing is lost -/

/-- **Suites and groups**: the order repeats no suite, has every default suite, and is the
    recognised preferred ones by first mention, then the defaults that are left; the groups are a
    permutation of the three, made the same way. -/
theorem orders_lose_nothing {defaultSuites : List Suite}
    (hdefaults : (defaultSuites.map rustls.suiteId).Nodup) (preferredNames : List String) :
    ((orderTls13CipherSuites rustls defaultSuites preferredNames).map rustls.suiteId).Nodup ∧
      (∀ suite ∈ defaultSuites, rustls.suiteId suite ∈
        (orderTls13CipherSuites rustls defaultSuites preferredNames).map rustls.suiteId) ∧
      orderTls13CipherSuites rustls defaultSuites preferredNames =
        firsts rustls.suiteId (preferredNames.filterMap rustls.named) ++
          defaultSuites.filter (fun suite => decide (rustls.suiteId suite ∉
            (preferredNames.filterMap rustls.named).map rustls.suiteId)) ∧
      ∀ preferred : List String, (orderKxGroups preferred).Perm supportedKxGroups ∧
        orderKxGroups preferred = firsts KxGroup.name (preferred.filterMap KxGroup.named) ++
          supportedKxGroups.filter (fun group => decide (group.name ∉
            (preferred.filterMap KxGroup.named).map KxGroup.name)) := by
  refine ⟨?_, ?_, ?_, fun preferred => ⟨orderKxGroups_perm preferred, ?_⟩⟩
  · rw [orderTls13CipherSuites_eq rustls hdefaults]
    exact nodup_mergedBy _ _ hdefaults
  · intro suite hsuite
    rw [orderTls13CipherSuites_eq rustls hdefaults]
    exact mem_mergedBy _ _ hdefaults hsuite
  · exact orderTls13CipherSuites_eq rustls hdefaults preferredNames
  · exact orderKxGroups_eq preferred

/-- A provider of four suites, one of them of TLS 1.2, told apart by their numbers. -/
def fourSuites : CipherSuites UInt16 where
  suite := id
  tls13Aes256GcmSha384 := 0x1302
  tls13Aes128GcmSha256 := 0x1301
  tls13Chacha20Poly1305Sha256 := 0x1303

theorem orders_lose_nothing_fourSuites :
    orderTls13CipherSuites fourSuites [0x1302, 0x1301, 0x1303, 0xc02f]
        ["TLS13_CHACHA20_POLY1305_SHA256", "unknown", "TLS13_CHACHA20_POLY1305_SHA256"] =
      [0x1303, 0x1302, 0x1301, 0xc02f] := by
  rw [(orders_lose_nothing fourSuites (by decide) _).2.2.1]
  decide

end Basecrawl.Core
