import RdmaOnAsio.Data.Grouping
import RdmaOnAsio.Nd.Discovery

/-!
# Discovery groups the addresses without loss

`chunk_by` is `List.splitBy`, so that what is known of that holds of the loop. On the addresses sorted
by the ids of their adapters it makes the groups of the resolved addresses, and what the sort permutes a
group does not see.
-/

namespace RdmaOnAsio.Nd

section Adaptors

variable {α β : Type}

/-- The accumulators of the loop are those of `List.splitBy`, which keeps them in reverse. -/
theorem chunkLoop_eq (pred : α → α → Bool) (rest : List α) (previous : α) (acc : List α)
    (chunks : List (List α)) :
    chunkLoop pred previous rest (previous :: acc).reverse chunks =
      List.splitBy.loop pred rest previous acc chunks.reverse := by
  induction rest generalizing previous acc chunks with
  | nil => simp only [chunkLoop, List.splitBy.loop, List.reverse_cons, List.reverse_reverse]
  | cons item rest ih =>
    rw [chunkLoop, List.splitBy.loop]
    cases pred previous item with
    | true =>
      rw [if_pos rfl, ← List.reverse_cons]
      exact ih item (previous :: acc) chunks
    | false =>
      have hnext := ih item [] (chunks ++ [(previous :: acc).reverse])
      rw [List.reverse_append] at hnext
      rw [if_neg Bool.false_ne_true]
      exact hnext

theorem chunkBy_eq_splitBy (pred : α → α → Bool) (range : List α) :
    chunkBy pred range = range.splitBy pred := by
  cases range with
  | nil => rfl
  | cons item rest => exact chunkLoop_eq pred rest item [] []

theorem filterMapLoop_eq (fn : α → Option β) (result : List β) (range : List α) :
    filterMapLoop fn result range = result ++ range.filterMap fn := by
  induction range generalizing result with
  | nil => rw [filterMapLoop, List.filterMap_nil, List.append_nil]
  | cons item range ih =>
    rw [filterMapLoop, List.filterMap_cons]
    cases fn item with
    | none => exact ih result
    | some value =>
      have hnext := ih (result ++ [value])
      rw [List.append_assoc] at hnext
      exact hnext

theorem filterMap_eq (fn : α → Option β) (range : List α) :
    filterMap fn range = range.filterMap fn := filterMapLoop_eq fn [] range

/-- What cutting a list by a predicate promises: no chunk is empty, nothing is lost or moved, the
predicate holds from each element of a chunk to the next, and fails from each chunk to the next. -/
structure CutsBy (pred : α → α → Bool) (l : List α) (chunks : List (List α)) : Prop where
  nonempty : ∀ c ∈ chunks, c ≠ []
  flatten : chunks.flatten = l
  inside : ∀ c ∈ chunks, c.IsChain fun a b => pred a b = true
  boundary : chunks.IsChain fun c d => ∃ hc hd, pred (c.getLast hc) (d.head hd) = false

theorem chunkBy_cutsBy (pred : α → α → Bool) (l : List α) : CutsBy pred l (chunkBy pred l) := by
  rw [chunkBy_eq_splitBy]
  exact ⟨fun _ => List.ne_nil_of_mem_splitBy, List.flatten_splitBy pred l,
    fun _ => List.isChain_of_mem_splitBy, List.isChain_getLast_head_splitBy pred l⟩

end Adaptors

/-! ## The groups of the addresses -/

variable {sort : (ResolvedNdAddress → ResolvedNdAddress → Bool) → List ResolvedNdAddress →
  List ResolvedNdAddress}

/-- Comparing the ids is a comparison to sort by. -/
theorem strictWeakOrder_adapterId :
    StrictWeakOrder fun a b : ResolvedNdAddress => decide (a.adapterId < b.adapterId) where
  irrefl a := by simp
  trans a b c hab hbc := by
    simp only [decide_eq_true_eq, UInt64.lt_iff_toNat_lt] at *
    omega
  incomparable a b c := by
    simp only [decide_eq_false_iff_not, UInt64.lt_iff_toNat_lt]
    omega

/-- The supported addresses that are resolved, with their ids. -/
def resolvedAddresses (addrList : List ListedAddress) : List ResolvedNdAddress :=
  (addrList.filter fun addr => isSupportedAddrFamily addr.address).filterMap fun addr =>
    addr.resolved.map fun id => ⟨id, addr.address⟩

/-- The pipeline groups the resolved addresses by their ids. -/
theorem groups_groupAddresses (hsort : IsSort sort) (addrList : List ListedAddress) :
    Groups (fun x : ResolvedNdAddress => x.adapterId.toNat) (resolvedAddresses addrList)
      (groupAddresses sort addrList) := by
  have hchunks : groupAddresses sort addrList =
      (sortBy sort ResolvedNdAddress.adapterId (resolvedAddresses addrList)).splitBy fun a b =>
        a.adapterId.toNat = b.adapterId.toNat := by
    rw [groupAddresses, chunkBy_eq_splitBy, filterMap_eq]
    congr 1
    funext a b
    rw [Bool.eq_iff_iff, beq_iff_eq, decide_eq_true_iff, UInt64.toNat_inj]
  obtain ⟨hperm, hpair⟩ := hsort _ strictWeakOrder_adapterId (resolvedAddresses addrList)
  rw [hchunks]
  refine (groups_splitBy (hpair.imp fun {a b} h => ?_)).of_perm hperm
  have hlt := of_decide_eq_false h
  rw [UInt64.lt_iff_toNat_lt] at hlt
  exact Nat.le_of_not_lt hlt

/-- The id a group is opened with. -/
def frontId (g : List ResolvedNdAddress) : Option UInt64 := g.head?.map ResolvedNdAddress.adapterId

/-- One group for every id that a supported address resolved to, with these addresses, each as often as
it is listed and resolved to the id. -/
structure GroupsById (addrList : List ListedAddress) (groups : List (List ResolvedNdAddress)) :
    Prop where
  nonempty : ∀ g ∈ groups, g ≠ []
  ids : ∀ id, (∃ g ∈ groups, frontId g = some id) ↔
    ∃ addr ∈ addrList, isSupportedAddrFamily addr.address = true ∧ addr.resolved = some id
  nodup : (groups.map frontId).Nodup
  uniform : ∀ g ∈ groups, ∀ id, frontId g = some id → ∀ x ∈ g, x.adapterId = id
  addresses : ∀ g ∈ groups, ∀ id, frontId g = some id →
    (g.map ResolvedNdAddress.address).Perm
      ((addrList.filter fun addr =>
        isSupportedAddrFamily addr.address && addr.resolved == some id).map ListedAddress.address)

theorem mem_resolvedAddresses {addrList : List ListedAddress} {x : ResolvedNdAddress} :
    x ∈ resolvedAddresses addrList ↔ ∃ addr ∈ addrList,
      isSupportedAddrFamily addr.address = true ∧ addr.resolved = some x.adapterId ∧
        addr.address = x.address := by
  simp only [resolvedAddresses, List.mem_filterMap, List.mem_filter, Option.map_eq_some_iff]
  constructor
  · rintro ⟨addr, ⟨hmem, hsupp⟩, id, hid, rfl⟩
    exact ⟨addr, hmem, hsupp, hid, rfl⟩
  · rintro ⟨addr, hmem, hsupp, hid, haddr⟩
    exact ⟨addr, ⟨hmem, hsupp⟩, x.adapterId, hid, by rw [haddr]⟩

/-- The addresses resolved to an id are the listed ones that are supported and resolved to it. -/
theorem map_address_filter (addrList : List ListedAddress) (id : UInt64) :
    ((resolvedAddresses addrList).filter fun x => x.adapterId.toNat = id.toNat).map
        ResolvedNdAddress.address =
      (addrList.filter fun addr =>
        isSupportedAddrFamily addr.address && addr.resolved == some id).map ListedAddress.address := by
  induction addrList with
  | nil => rfl
  | cons addr addrList ih =>
    rw [resolvedAddresses] at ih ⊢
    rw [List.filter_cons, List.filter_cons]
    cases hsupp : isSupportedAddrFamily addr.address with
    | false => simpa using ih
    | true =>
      rw [if_pos rfl, List.filterMap_cons]
      cases hres : addr.resolved with
      | none => simpa using ih
      | some k =>
        by_cases hk : k = id
        · subst hk
          simpa using ih
        · have hk' : k.toNat ≠ id.toNat := fun h => hk (UInt64.toNat_inj.1 h)
          simpa [hk, hk'] using ih

/-- The front of a group is one of its elements. -/
theorem exists_mem_of_frontId {g : List ResolvedNdAddress} {id : UInt64} (h : frontId g = some id) :
    ∃ x ∈ g, x.adapterId = id := by
  obtain ⟨x, hx, hid⟩ := Option.map_eq_some_iff.1 h
  exact ⟨x, List.mem_of_head? hx, hid⟩

theorem groupsById_groupAddresses (hsort : IsSort sort) (addrList : List ListedAddress) :
    GroupsById addrList (groupAddresses sort addrList) := by
  have hgroups := groups_groupAddresses hsort addrList
  have huniform : ∀ g ∈ groupAddresses sort addrList, ∀ id, frontId g = some id →
      ∀ x ∈ g, x.adapterId = id := by
    intro g hg id hid x hx
    obtain ⟨y, hy, rfl⟩ := exists_mem_of_frontId hid
    exact UInt64.toNat_inj.1 (hgroups.uniform g hg x hx y hy)
  refine ⟨hgroups.nonempty, fun id => ?_, ?_, huniform, fun g hg id hid => ?_⟩
  · have hkey := hgroups.exists_group_iff id.toNat
    constructor
    · rintro ⟨g, hg, hid⟩
      obtain ⟨x, hx, rfl⟩ := exists_mem_of_frontId hid
      obtain ⟨y, hy, hyx⟩ := hkey.1 ⟨g, hg, x, hx, rfl⟩
      obtain ⟨addr, hmem, hsupp, hres, -⟩ := mem_resolvedAddresses.1 hy
      exact ⟨addr, hmem, hsupp, by rw [hres, UInt64.toNat_inj.1 hyx]⟩
    · rintro ⟨addr, hmem, hsupp, hres⟩
      have hx : (⟨id, addr.address⟩ : ResolvedNdAddress) ∈ resolvedAddresses addrList :=
        mem_resolvedAddresses.2 ⟨addr, hmem, hsupp, hres, rfl⟩
      obtain ⟨g, hg, x, hx, hxid⟩ := hkey.2 ⟨_, hx, rfl⟩
      refine ⟨g, hg, ?_⟩
      cases g with
      | nil => cases hx
      | cons y g =>
        have hy := huniform (y :: g) hg y.adapterId rfl x hx
        rw [frontId, List.head?_cons, Option.map_some, ← hy, UInt64.toNat_inj.1 hxid]
  · refine List.pairwise_map.2 (hgroups.distinct.imp_of_mem fun {g h} hg hh hgh hfront => ?_)
    cases g with
    | nil => exact hgroups.nonempty [] hg rfl
    | cons x g =>
      have hfront' : frontId h = some x.adapterId := hfront.symm
      obtain ⟨y, hy, hyx⟩ := exists_mem_of_frontId hfront'
      exact hgh x List.mem_cons_self y hy (by rw [hyx])
  · obtain ⟨x, hx, rfl⟩ := exists_mem_of_frontId hid
    rw [← map_address_filter]
    exact (hgroups.group_perm hg hx).map _

/-- Discovery cuts every list where the predicate fails, and groups the addresses of a provider by the
adapters they resolve to. -/
theorem discovery_groups {α : Type} (pred : α → α → Bool) (l : List α) (hsort : IsSort sort)
    (addrList : List ListedAddress) :
    CutsBy pred l (chunkBy pred l) ∧ GroupsById addrList (groupAddresses sort addrList) :=
  ⟨chunkBy_cutsBy pred l, groupsById_groupAddresses hsort addrList⟩

/-- Merge sort is a sort. -/
theorem isSort_mergeSort {α : Type} :
    IsSort fun (lt : α → α → Bool) l => l.mergeSort fun a b => !lt b a := by
  intro lt hlt l
  have htrans : ∀ a b c, (!lt b a) = true → (!lt c b) = true → (!lt c a) = true := by
    intro a b c hba hcb
    rw [Bool.not_eq_true'] at *
    by_contra hca
    rw [Bool.not_eq_false] at hca
    cases hab : lt a b with
    | true => exact absurd (hlt.trans c a b hca hab) (by rw [hcb]; exact Bool.false_ne_true)
    | false =>
      cases hbc : lt b c with
      | true => exact absurd (hlt.trans b c a hbc hca) (by rw [hba]; exact Bool.false_ne_true)
      | false =>
        have hac := (hlt.incomparable a b c hab hba hbc hcb).2
        exact absurd hca (by rw [hac]; exact Bool.false_ne_true)
  have htotal : ∀ a b, ((!lt b a) || !lt a b) = true := by
    intro a b
    cases hab : lt a b with
    | false => rw [Bool.not_false, Bool.or_true]
    | true =>
      cases hba : lt b a with
      | false => rfl
      | true => exact absurd (hlt.trans a b a hab hba) (by rw [hlt.irrefl a]; exact Bool.false_ne_true)
  refine ⟨List.mergeSort_perm l _, (List.pairwise_mergeSort htrans htotal l).imp fun {a b} h => ?_⟩
  rwa [Bool.not_eq_true'] at h

/-- Two addresses of one adapter, one of them listed twice, around one that is not supported and one
that is not resolved. -/
def listed : List ListedAddress :=
  [⟨⟨2, [10, 0, 0, 1], 16⟩, some 7⟩, ⟨⟨17, [], 16⟩, some 7⟩, ⟨⟨2, [10, 0, 0, 2], 16⟩, some 3⟩,
    ⟨⟨23, [1], 28⟩, none⟩, ⟨⟨2, [10, 0, 0, 1], 16⟩, some 7⟩]

theorem discovery_groups_listed :
    CutsBy (fun a b : Nat => a ≤ b) [1, 2, 1] (chunkBy (fun a b => a ≤ b) [1, 2, 1]) ∧
      GroupsById listed (groupAddresses (fun lt l => l.mergeSort fun a b => !lt b a) listed) :=
  discovery_groups (fun a b => a ≤ b) [1, 2, 1] isSort_mergeSort listed

/-! ## Opening the adapters -/

section Opening

variable {δ : Type} {openDevice : Bool → UInt64 → List Nd2Sockaddr → Option δ}

/-- Every entry of the result is what the second call of `open_device` for a group comes to, the first
having returned a device. -/
theorem mem_discoverProviderDevices {addrList : List ListedAddress} {d : Option δ} :
    d ∈ discoverProviderDevices sort openDevice (some addrList) ↔
      ∃ g ∈ groupAddresses sort addrList, ∃ id, frontId g = some id ∧
        (openDevice false id (g.map ResolvedNdAddress.address)).isSome = true ∧
        openDevice true id (g.map ResolvedNdAddress.address) = d := by
  simp only [discoverProviderDevices, List.mem_map, List.mem_filter]
  constructor
  · rintro ⟨g, ⟨hg, hsome⟩, hd⟩
    cases g with
    | nil => cases hsome
    | cons x g => exact ⟨x :: g, hg, x.adapterId, rfl, hsome, hd⟩
  · rintro ⟨g, hg, id, hid, hsome, hd⟩
    cases g with
    | nil => cases hid
    | cons x g =>
      obtain rfl : x.adapterId = id := Option.some.inj hid
      exact ⟨x :: g, ⟨hg, hsome⟩, hd⟩

end Opening

end RdmaOnAsio.Nd
