import RdmaOnAsio.Nd.Device
import RdmaOnAsio.Nd.Proofs.Discovery

/-!
# What a provider's discovery finds

An adapter is opened with the addresses of one list, its own or the provider's, and has the first one of
each family in it that can be read. Discovery opens one adapter for every id and keeps those it could
open; an adapter that it could not open when it copied it is a null pointer in the result.
-/

namespace RdmaOnAsio.Nd

open ErrorCode

variable {answers : OpenAnswers} {adapterId : UInt64} {addresses : List Nd2Sockaddr} {d : NdDevice}

/-! ## The addresses of a device -/

/-- The list a device takes its addresses from: the adapter's, unless it cannot be had or is empty. -/
def sourceAddresses (answers : OpenAnswers) (providerAddresses : List Nd2Sockaddr) : List Nd2Sockaddr :=
  match queryAddressList answers.addressList with
  | .error _ => providerAddresses
  | .ok adapterAddresses =>
    if adapterAddresses.isEmpty then providerAddresses else adapterAddresses

theorem isSupported_of_toIpAddress {addr : Nd2Sockaddr} {a : IpAddress} (h : toIpAddress addr = some a) :
    isSupportedAddrFamily addr = true := by
  by_contra hn
  rw [toIpAddress, Bool.eq_false_iff.2 hn] at h
  cases h

/-- What is attached is what can be read of the list, in its order. -/
theorem attachDeviceAddresses_eq (d : NdDevice) (addresses : List Nd2Sockaddr) :
    attachDeviceAddresses d addresses =
      d.withAddresses
        ((addresses.filterMap toIpAddress).foldl LocalAddresses.attach d.toLocalAddresses) := by
  unfold attachDeviceAddresses
  induction addresses generalizing d with
  | nil => rfl
  | cons addr addresses ih =>
    rw [List.filter_cons, List.filterMap_cons]
    cases haddr : toIpAddress addr with
    | none =>
      by_cases hsupp : isSupportedAddrFamily addr = true
      · rw [if_pos hsupp, List.foldl_cons, attachDeviceAddress, haddr]
        exact ih d
      · rw [if_neg hsupp]
        exact ih d
    | some a =>
      rw [if_pos (isSupported_of_toIpAddress haddr), List.foldl_cons, attachDeviceAddress, haddr, ih]
      rfl

theorem attachOpened_eq (d : NdDevice) (answers : OpenAnswers) (addresses : List Nd2Sockaddr) :
    attachOpened d answers.addressList addresses =
      d.withAddresses (((sourceAddresses answers addresses).filterMap toIpAddress).foldl
        LocalAddresses.attach d.toLocalAddresses) := by
  rw [← attachDeviceAddresses_eq]
  unfold attachOpened sourceAddresses
  cases queryAddressList answers.addressList with
  | error ec => rfl
  | ok adapterAddresses => cases adapterAddresses <;> rfl

/-- A created device has no address yet. -/
theorem createDevice_eq_ok (h : createDevice answers adapterId = .ok d) :
    d.adapterId = adapterId ∧ d.adapter = some adapterId.toNat ∧ d.pd.isSome = true ∧
      d.toLocalAddresses = {} := by
  unfold createDevice at h
  split_ifs at h
  split at h
  · cases h
  · obtain rfl := Except.ok.inj h
    exact ⟨rfl, rfl, rfl, rfl⟩

theorem isNone_and_isNone (a : LocalAddresses) : (a.v4Address.isNone && a.v6Address.isNone) = !a.any := by
  rw [LocalAddresses.any, Bool.not_or, Option.not_isSome, Option.not_isSome]

/-- What an opened device is: it was created, and has the addresses that can be read of its list, of
which there is one. -/
theorem openDevice_eq_ok :
    openDevice answers adapterId addresses = .ok d ↔
      addresses ≠ [] ∧ ∃ created, createDevice answers adapterId = .ok created ∧
        (sourceAddresses answers addresses).filterMap toIpAddress ≠ [] ∧
        d = created.withAddresses (((sourceAddresses answers addresses).filterMap toIpAddress).foldl
          LocalAddresses.attach {}) := by
  unfold openDevice
  cases addresses with
  | nil => simp
  | cons addr addresses =>
    cases hc : createDevice answers adapterId with
    | error ec => simp
    | ok created =>
      have hfresh := (createDevice_eq_ok hc).2.2.2
      generalize hl : (sourceAddresses answers (addr :: addresses)).filterMap toIpAddress = l
      have hattached : attachOpened created answers.addressList (addr :: addresses) =
          created.withAddresses (l.foldl LocalAddresses.attach {}) := by
        rw [attachOpened_eq, hl, hfresh]
      have hany : ((created.withAddresses (l.foldl LocalAddresses.attach {})).v4Address.isNone &&
          (created.withAddresses (l.foldl LocalAddresses.attach {})).v6Address.isNone) = l.isEmpty := by
        rw [isNone_and_isNone]
        show (!(l.foldl LocalAddresses.attach {}).any) = l.isEmpty
        rw [LocalAddresses.any_foldl_attach, Bool.not_not]
      simp only [List.isEmpty_cons, Bool.false_eq_true, if_false, hattached, hany, ne_eq, List.cons_ne_nil,
        not_false_eq_true, true_and, Except.ok.injEq, exists_eq_left']
      cases l with
      | nil => simp
      | cons a l => simp [eq_comm]

/-- The addresses of an opened device are the first ones of the list it takes them from. -/
theorem addresses_of_openDevice (h : openDevice answers adapterId addresses = .ok d) :
    d.adapterId = adapterId ∧ d.adapter = some adapterId.toNat ∧ d.any = true ∧ d.toLocalAddresses =
      ⟨((sourceAddresses answers addresses).filterMap toIpAddress).find? IpAddress.isV4,
        ((sourceAddresses answers addresses).filterMap toIpAddress).find? IpAddress.isV6⟩ := by
  obtain ⟨-, created, hc, hne, rfl⟩ := openDevice_eq_ok.1 h
  obtain ⟨hid, hadapter, -, -⟩ := createDevice_eq_ok hc
  refine ⟨hid, hadapter, ?_, ?_⟩
  · have hany := LocalAddresses.any_foldl_attach ((sourceAddresses answers addresses).filterMap toIpAddress)
    rw [List.isEmpty_eq_false_iff.2 hne] at hany
    exact hany
  · show ((sourceAddresses answers addresses).filterMap toIpAddress).foldl LocalAddresses.attach {} = _
    rw [LocalAddresses.foldl_attach]
    rfl

/-! ## The devices of a provider -/

section Provider

variable {sort : (ResolvedNdAddress → ResolvedNdAddress → Bool) → List ResolvedNdAddress →
  List ResolvedNdAddress} {provider : ProviderAnswers} {addrList : List ListedAddress}

/-- The supported addresses that resolve to an adapter, in the order of the list. -/
def listedFor (addrList : List ListedAddress) (id : UInt64) : List Nd2Sockaddr :=
  (addrList.filter fun addr =>
    isSupportedAddrFamily addr.address && addr.resolved == some id).map ListedAddress.address

/-- The adapter can be opened with the addresses listed for it, when it is tested or when it is copied. -/
def ProviderAnswers.CanOpen (provider : ProviderAnswers) (again : Bool) (addrList : List ListedAddress)
    (id : UInt64) : Prop :=
  ∃ d, openDevice (provider.opens again id) id (listedFor addrList id) = .ok d

/-- What discovery promises of a provider: one device for every adapter that could be opened both when
it was tested and when it was copied, with the first addresses of a list that is the adapter's own or,
in some order, what the provider lists for it; and a null pointer if there is an adapter that could be
opened only the first time. -/
structure ProviderFound (provider : ProviderAnswers) (addrList : List ListedAddress)
    (devices : List (Option NdDevice)) : Prop where
  once : (devices.filterMap fun d => d.map NdDevice.adapterId).Nodup
  opened : ∀ id, (∃ d, some d ∈ devices ∧ d.adapterId = id) ↔
    provider.CanOpen false addrList id ∧ provider.CanOpen true addrList id
  null : none ∈ devices ↔ ∃ id, provider.CanOpen false addrList id ∧ ¬ provider.CanOpen true addrList id
  addresses : ∀ d, some d ∈ devices → d.any = true ∧
    ∃ listed : List Nd2Sockaddr, listed.Perm (listedFor addrList d.adapterId) ∧
      d.toLocalAddresses =
        ⟨((sourceAddresses (provider.opens true d.adapterId) listed).filterMap toIpAddress).find? IpAddress.isV4,
          ((sourceAddresses (provider.opens true d.adapterId) listed).filterMap toIpAddress).find?
            IpAddress.isV6⟩

theorem eq_nil_iff_of_perm {α : Type} {l l' : List α} (h : l.Perm l') : l = [] ↔ l' = [] := by
  rw [← List.length_eq_zero_iff, h.length_eq, List.length_eq_zero_iff]

/-- Whether an adapter can be opened does not depend on the order of the addresses. -/
theorem exists_openDevice_of_perm {l l' : List Nd2Sockaddr} (h : l.Perm l') :
    (∃ d, openDevice answers adapterId l = .ok d) ↔ ∃ d, openDevice answers adapterId l' = .ok d := by
  have hsource : (sourceAddresses answers l).filterMap toIpAddress = [] ↔
      (sourceAddresses answers l').filterMap toIpAddress = [] := by
    unfold sourceAddresses
    cases queryAddressList answers.addressList with
    | error ec => exact eq_nil_iff_of_perm (h.filterMap toIpAddress)
    | ok adapterAddresses =>
      cases adapterAddresses with
      | nil => exact eq_nil_iff_of_perm (h.filterMap toIpAddress)
      | cons addr adapterAddresses => exact Iff.rfl
  simp only [openDevice_eq_ok, ne_eq, hsource, eq_nil_iff_of_perm h]
  constructor <;> rintro ⟨_, hne, created, hc, hl, -⟩ <;> exact ⟨_, hne, created, hc, hl, rfl⟩

/-- The addresses of a group are those listed for its adapter. -/
theorem exists_openDevice_group {g : List ResolvedNdAddress} {id : UInt64}
    (hgroups : GroupsById addrList (groupAddresses sort addrList)) (hg : g ∈ groupAddresses sort addrList)
    (hid : frontId g = some id) (again : Bool) :
    (∃ d, openDevice (provider.opens again id) id (g.map ResolvedNdAddress.address) = .ok d) ↔
      provider.CanOpen again addrList id :=
  exists_openDevice_of_perm (hgroups.addresses g hg id hid)

theorem isSome_toOption {α β : Type} {e : Except α β} : e.toOption.isSome = true ↔ ∃ b, e = .ok b := by
  cases e <;> simp [Except.toOption]

/-- An adapter that can be opened has a group. -/
theorem exists_group_of_canOpen {again : Bool} {id : UInt64}
    (hgroups : GroupsById addrList (groupAddresses sort addrList)) (h : provider.CanOpen again addrList id) :
    ∃ g ∈ groupAddresses sort addrList, frontId g = some id := by
  obtain ⟨d, hd⟩ := h
  have hne := (openDevice_eq_ok.1 hd).1
  rw [listedFor, ne_eq, List.map_eq_nil_iff] at hne
  obtain ⟨addr, hmem⟩ := List.exists_mem_of_ne_nil _ hne
  obtain ⟨hlisted, hcond⟩ := List.mem_filter.1 hmem
  rw [Bool.and_eq_true, beq_iff_eq] at hcond
  exact (hgroups.ids id).2 ⟨addr, hlisted, hcond⟩

/-- What stands in the result for a group that could be opened when it was tested. -/
theorem mem_providerDevices (hsort : IsSort sort) {d : Option NdDevice} :
    d ∈ discoverProviderDevices sort
        (fun again id addresses => (openDevice (provider.opens again id) id addresses).toOption)
        (some addrList) ↔
      ∃ g ∈ groupAddresses sort addrList, ∃ id, frontId g = some id ∧ provider.CanOpen false addrList id ∧
        (openDevice (provider.opens true id) id (g.map ResolvedNdAddress.address)).toOption = d := by
  have hgroups := groupsById_groupAddresses hsort addrList
  rw [mem_discoverProviderDevices]
  refine exists_congr fun g => and_congr_right fun hg => exists_congr fun id => and_congr_right fun hid => ?_
  rw [isSome_toOption, exists_openDevice_group hgroups hg hid false]

theorem found_discoverProviderDevices (hsort : IsSort sort) (provider : ProviderAnswers)
    (addrList : List ListedAddress) :
    ProviderFound provider addrList (discoverProviderDevices sort
      (fun again id addresses => (openDevice (provider.opens again id) id addresses).toOption)
      (some addrList)) := by
  have hgroups := groupsById_groupAddresses hsort addrList
  refine ⟨?_, fun id => ⟨?_, ?_⟩, ⟨?_, ?_⟩, fun d hd => ?_⟩
  · -- the groups have different ids, and a device has that of its group
    have hnodup := List.pairwise_map.1 hgroups.nodup
    have hid : ∀ g ∈ groupAddresses sort addrList, ∀ id, frontId g = some id → ∀ k,
        ((openDevice (provider.opens true id) id (g.map ResolvedNdAddress.address)).toOption.map
          NdDevice.adapterId) = some k → k = id := by
      intro g _ id _ k hk
      obtain ⟨d, hd, rfl⟩ := Option.map_eq_some_iff.1 hk
      cases ho : openDevice (provider.opens true id) id (g.map ResolvedNdAddress.address) with
      | error ec =>
        rw [ho] at hd
        cases hd
      | ok d' =>
        rw [ho] at hd
        obtain rfl := Option.some.inj hd
        exact (addresses_of_openDevice ho).1
    simp only [discoverProviderDevices, List.Nodup, List.pairwise_filterMap, List.pairwise_map,
      List.pairwise_filter]
    refine hnodup.imp_of_mem fun {g h} hg hh hgh _ _ k hk k' hk' hkk => ?_
    cases g with
    | nil => cases hk
    | cons x g =>
      cases h with
      | nil => cases hk'
      | cons y h =>
        have hx := hid (x :: g) hg x.adapterId rfl k hk
        have hy := hid (y :: h) hh y.adapterId rfl k' hk'
        apply hgh
        show some x.adapterId = some y.adapterId
        rw [← hx, ← hy, hkk]
  · rintro ⟨d, hd, rfl⟩
    obtain ⟨g, hg, id, hid, hfalse, hd⟩ := (mem_providerDevices hsort).1 hd
    cases ho : openDevice (provider.opens true id) id (g.map ResolvedNdAddress.address) with
    | error ec =>
      rw [ho] at hd
      cases hd
    | ok d' =>
      rw [ho] at hd
      obtain rfl := Option.some.inj hd
      rw [(addresses_of_openDevice ho).1]
      exact ⟨hfalse, (exists_openDevice_group hgroups hg hid true).1 ⟨d', ho⟩⟩
  · rintro ⟨hfalse, htrue⟩
    obtain ⟨g, hg, hid⟩ := exists_group_of_canOpen hgroups hfalse
    obtain ⟨d, hd⟩ := (exists_openDevice_group hgroups hg hid true).2 htrue
    refine ⟨d, (mem_providerDevices hsort).2 ⟨g, hg, id, hid, hfalse, ?_⟩, (addresses_of_openDevice hd).1⟩
    rw [hd]
    rfl
  · intro hnull
    obtain ⟨g, hg, id, hid, hfalse, hd⟩ := (mem_providerDevices hsort).1 hnull
    refine ⟨id, hfalse, fun htrue => ?_⟩
    have hsome := isSome_toOption.2 ((exists_openDevice_group hgroups hg hid true).2 htrue)
    rw [hd] at hsome
    cases hsome
  · rintro ⟨id, hfalse, hnot⟩
    obtain ⟨g, hg, hid⟩ := exists_group_of_canOpen hgroups hfalse
    refine (mem_providerDevices hsort).2 ⟨g, hg, id, hid, hfalse, ?_⟩
    rw [← Option.not_isSome_iff_eq_none, isSome_toOption, exists_openDevice_group hgroups hg hid true]
    exact hnot
  · obtain ⟨g, hg, id, hid, -, hd⟩ := (mem_providerDevices hsort).1 hd
    cases ho : openDevice (provider.opens true id) id (g.map ResolvedNdAddress.address) with
    | error ec =>
      rw [ho] at hd
      cases hd
    | ok d' =>
      rw [ho] at hd
      obtain rfl := Option.some.inj hd
      obtain ⟨hadapter, -, hany, haddr⟩ := addresses_of_openDevice ho
      rw [hadapter]
      exact ⟨hany, _, hgroups.addresses g hg id hid, haddr⟩

/-- Nothing is found of a provider that does not list its addresses. -/
theorem ProviderFound.nil (provider : ProviderAnswers) : ProviderFound provider [] [] := by
  have hnot : ∀ again id, ¬ provider.CanOpen again [] id := by
    rintro again id ⟨d, hd⟩
    exact (openDevice_eq_ok.1 hd).1 rfl
  refine ⟨List.nodup_nil, fun id => ⟨?_, fun h => absurd h.1 (hnot _ _)⟩,
    ⟨fun h => absurd h List.not_mem_nil, ?_⟩, fun _ hd => absurd hd List.not_mem_nil⟩
  · rintro ⟨_, hd, -⟩
    exact absurd hd List.not_mem_nil
  · rintro ⟨id, h, -⟩
    exact absurd h (hnot _ _)

/-- Whatever a provider lists, its addresses resolve to and the native calls answer,
`discover_provider_devices` finds what it promises. -/
theorem providerDevices_found (hsort : IsSort sort) (provider : ProviderAnswers) :
    ProviderFound provider (provider.listed.getD []) (providerDevices sort provider) := by
  unfold providerDevices
  cases provider.listed with
  | none => exact .nil provider
  | some addrList => exact found_discoverProviderDevices hsort provider addrList

/-- Two NICs, one of which has both an IPv4 and an IPv6 address at the provider and cannot be opened
when it is copied; the other one lists an address of its own. -/
def dualFamily : ProviderAnswers where
  addressList := ⟨3, true, ndSuccess,
    [⟨[2, 0, 0, 0, 10, 0, 0, 1], 16⟩, ⟨[23, 0], 28⟩, ⟨[2, 0, 0, 0, 10, 0, 0, 2], 16⟩]⟩
  resolve i := some (if i = 2 then 9 else 5)
  opens again id :=
    { openAdapter := if again ∧ id = 5 then 1 else ndSuccess
      info := ⟨0, 0, 0, 0, 0, 0, 0, 0⟩
      addressList := ⟨if id = 9 then 1 else 0, true, ndSuccess, [⟨[2, 0, 0, 0, 10, 0, 0, 3], 16⟩]⟩ }

theorem providerDevices_found_dualFamily :
    ProviderFound dualFamily (dualFamily.listed.getD [])
      (providerDevices (fun lt l => l.mergeSort fun a b => !lt b a) dualFamily) :=
  providerDevices_found isSort_mergeSort dualFamily

end Provider

end RdmaOnAsio.Nd
