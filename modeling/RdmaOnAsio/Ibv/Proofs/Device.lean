import RdmaOnAsio.Ibv.Device
import RdmaOnAsio.Ibv.Proofs.UseDevice

/-!
# What the discovery of ibv devices finds

A bound address goes to the first device of its context, so that of two devices of one context the
second never has an address and is dropped. The devices that are left have the first address of each
family that bound to their contexts, and every context with a device and an address is among theirs.
-/

namespace RdmaOnAsio.Ibv

open ErrorCode

variable {env : Environment} {made : List IbvDevice} {d : IbvDevice} {i : Nat}

/-! ## The addresses that are bound -/

/-- The context and the address that one turn of the loop of `attach_local_addresses` comes to. -/
def boundAddress (interface : Interface) : Option (Nat × IpAddress) :=
  if isCandidateLocalAddress interface then
    (toIpAddress interface.addr).bind fun address =>
      (bindableContextFor interface).map fun context => (context, address)
  else none

namespace Environment

/-- The devices that could be made, in the order of the array. -/
def created (env : Environment) : List IbvDevice := createDevices (env.devices.getD [])

/-- The contexts that local addresses bound to, in the order of the interfaces. -/
def bound (env : Environment) : List (Nat × IpAddress) :=
  (env.interfaces.toOption.getD []).filterMap boundAddress

/-- The addresses that bound to a context. -/
def boundTo (env : Environment) (context : Nat) : List IpAddress :=
  (env.bound.filter (·.1 == context)).map Prod.snd

end Environment

/-- The device before it was given addresses. -/
def IbvDevice.withoutAddresses (d : IbvDevice) : IbvDevice := d.withAddresses {}

/-- What discovery promises: devices that could be made, in the order of the array and one for each context;
each with the first address of either family that bound to its context, of which there is one; and none is
missing that was made for a context with an address. -/
structure Discovered (env : Environment) (devices : List IbvDevice) : Prop where
  made : (devices.map IbvDevice.withoutAddresses).Sublist env.created
  once : (devices.map IbvDevice.context).Nodup
  addresses : ∀ d ∈ devices, d.toLocalAddresses =
    ⟨(env.boundTo d.context).find? IpAddress.isV4, (env.boundTo d.context).find? IpAddress.isV6⟩
  bound : ∀ d ∈ devices, env.boundTo d.context ≠ []
  complete : ∀ d ∈ env.created, env.boundTo d.context ≠ [] → ∃ d' ∈ devices, d'.context = d.context

/-! ## Attaching the addresses -/

/-- A bound address changes the first device of its context. -/
def attachBound (devices : List IbvDevice) (x : Nat × IpAddress) : List IbvDevice :=
  modifyFirst (·.context == x.1) (attachDeviceAddress x.2) devices

theorem attachLocalAddress_eq (devices : List IbvDevice) (interface : Interface) :
    attachLocalAddress devices interface =
      match boundAddress interface with
      | none => devices
      | some x => attachBound devices x := by
  unfold attachLocalAddress boundAddress
  cases isCandidateLocalAddress interface with
  | false => rfl
  | true =>
    cases toIpAddress interface.addr with
    | none => rfl
    | some address => cases bindableContextFor interface <;> rfl

theorem foldl_attachLocalAddress (interfaces : List Interface) (devices : List IbvDevice) :
    interfaces.foldl attachLocalAddress devices =
      (interfaces.filterMap boundAddress).foldl attachBound devices := by
  induction interfaces generalizing devices with
  | nil => rfl
  | cons interface interfaces ih =>
    rw [List.foldl_cons, ih, attachLocalAddress_eq, List.filterMap_cons]
    cases boundAddress interface <;> rfl

/-- A device with the addresses that are attached to it one after the other. -/
theorem foldl_attachDeviceAddress (l : List (Nat × IpAddress)) (d : IbvDevice) :
    l.foldl (fun d x => attachDeviceAddress x.2 d) d =
      d.withAddresses ((l.map Prod.snd).foldl LocalAddresses.attach d.toLocalAddresses) := by
  induction l generalizing d with
  | nil => rfl
  | cons x l ih => rw [List.foldl_cons, ih]; rfl

/-- The device is the first of its context. -/
def IsFirst (made : List IbvDevice) (i : Nat) (d : IbvDevice) : Prop :=
  made.findIdx (·.context == d.context) = i

instance : Decidable (IsFirst made i d) := inferInstanceAs (Decidable (_ = _))

/-- A context is looked for at a device if that is the first one with this context. -/
theorem findIdx_context_iff (hd : made[i]? = some d) (c : Nat) :
    made.findIdx (·.context == c) = i ↔ c = d.context ∧ IsFirst made i d := by
  obtain ⟨hlt, rfl⟩ := List.getElem?_eq_some_iff.1 hd
  constructor
  · rintro rfl
    have hc := eq_of_beq (List.findIdx_getElem (w := hlt))
    exact ⟨hc.symm, by rw [IsFirst, hc]⟩
  · rintro ⟨rfl, hfirst⟩
    exact hfirst

/-- A device with the addresses that bound to its context, if it is the first of it, else as it was. -/
theorem getElem?_foldl_attachBound (bound : List (Nat × IpAddress)) (hd : made[i]? = some d) :
    (bound.foldl attachBound made)[i]? =
      some (d.withAddresses
        ((if IsFirst made i d then (bound.filter (·.1 == d.context)).map Prod.snd else []).foldl
          LocalAddresses.attach d.toLocalAddresses)) := by
  have hkeep : ∀ (x y : Nat × IpAddress) (a : IbvDevice),
      ((attachDeviceAddress y.2 a).context == x.1) = (a.context == x.1) := fun _ _ _ => rfl
  refine (getElem?_foldl_modifyFirst (k := fun (x : Nat × IpAddress) (a : IbvDevice) => a.context == x.1)
    (f := fun x => attachDeviceAddress x.2) hkeep bound made i).trans ?_
  rw [hd, Option.map_some, foldl_attachDeviceAddress]
  have hseen : (bound.filter fun x => made.findIdx (fun a => a.context == x.1) == i).map Prod.snd =
      if IsFirst made i d then (bound.filter (·.1 == d.context)).map Prod.snd else [] := by
    by_cases hfirst : IsFirst made i d
    · rw [if_pos hfirst]
      refine congrArg _ (List.filter_congr fun x _ => ?_)
      rw [Bool.eq_iff_iff, beq_iff_eq, beq_iff_eq, findIdx_context_iff hd, and_iff_left hfirst]
    · rw [if_neg hfirst, List.map_eq_nil_iff, List.filter_eq_nil_iff]
      intro x _ hx
      exact hfirst ((findIdx_context_iff hd x.1).1 (eq_of_beq hx)).2
  rw [hseen]

/-- What is attached to a list of devices without addresses. -/
structure Attached (bound : List (Nat × IpAddress)) (made attached : List IbvDevice) : Prop where
  unfilled : attached.map IbvDevice.withoutAddresses = made
  first : ∀ i d, attached[i]? = some d → hasLocalAddress d = true → IsFirst made i d
  addresses : ∀ i d, attached[i]? = some d → IsFirst made i d →
    d.toLocalAddresses = ((bound.filter (·.1 == d.context)).map Prod.snd).foldl LocalAddresses.attach {}

theorem attached_foldl (bound : List (Nat × IpAddress)) (hfresh : ∀ d ∈ made, d.toLocalAddresses = {}) :
    Attached bound made (bound.foldl attachBound made) := by
  have hlen : (bound.foldl attachBound made).length = made.length :=
    length_foldl_modifyFirst (k := fun (x : Nat × IpAddress) (a : IbvDevice) => a.context == x.1)
      (f := fun x => attachDeviceAddress x.2) bound made
  -- a device of the result is one of the list, at the same place
  have hpre : ∀ i d, (bound.foldl attachBound made)[i]? = some d → ∃ d₀ : IbvDevice, made[i]? = some d₀ ∧
      d₀.toLocalAddresses = {} ∧ d = d₀.withAddresses
        ((if IsFirst made i d₀ then (bound.filter (·.1 == d₀.context)).map Prod.snd else []).foldl
          LocalAddresses.attach {}) := by
    intro i d hd
    obtain ⟨hlt, -⟩ := List.getElem?_eq_some_iff.1 hd
    rw [hlen] at hlt
    have hd₀ := List.getElem?_eq_getElem hlt
    have hempty := hfresh _ (List.getElem_mem hlt)
    have hat := getElem?_foldl_attachBound bound hd₀
    rw [hd, hempty] at hat
    exact ⟨_, hd₀, hempty, Option.some.inj hat⟩
  refine ⟨List.ext_getElem? fun i => ?_, fun i d hd hhas => ?_, fun i d hd hfirst => ?_⟩
  · rw [List.getElem?_map]
    cases hd : (bound.foldl attachBound made)[i]? with
    | none =>
      rw [List.getElem?_eq_none_iff, hlen, ← List.getElem?_eq_none_iff] at hd
      exact hd.symm
    | some d =>
      obtain ⟨d₀, hd₀, hempty, rfl⟩ := hpre i d hd
      rw [hd₀, Option.map_some, IbvDevice.withoutAddresses, ← hempty]
      rfl
  · obtain ⟨d₀, -, -, rfl⟩ := hpre i d hd
    by_contra hnot
    rw [if_neg (show ¬ IsFirst made i d₀ from hnot)] at hhas
    cases hhas
  · obtain ⟨d₀, -, -, rfl⟩ := hpre i d hd
    exact if_pos (show IsFirst made i d₀ from hfirst) ▸ rfl

/-! ## The devices that are kept -/

theorem toLocalAddresses_createDevices {array : List DeviceAnswers} (hd : d ∈ createDevices array) :
    d.toLocalAddresses = {} := by
  obtain ⟨answers, -, h⟩ := List.mem_filterMap.1 hd
  obtain ⟨context, allocPd, queryDevice, attr, name⟩ := answers
  cases context with
  | none => cases h
  | some context =>
    cases allocPd with
    | some errno =>
      by_cases he : (makeSystemErrorCode errno).isError = true <;> simp [createDevice, he] at h
    | none =>
      cases queryDevice with
      | some errno =>
        by_cases he : (makeSystemErrorCode errno).isError = true <;> simp [createDevice, he] at h
      | none =>
        obtain rfl := Option.some.inj h
        rfl

/-- The devices that have an address are what discovery promises. -/
theorem Attached.discovered {attached : List IbvDevice} (h : Attached env.bound env.created attached) :
    Discovered env (attached.filter hasLocalAddress) := by
  have hplace : ∀ d ∈ attached.filter hasLocalAddress, ∃ i, attached[i]? = some d ∧
      hasLocalAddress d = true ∧ IsFirst env.created i d ∧
      d.toLocalAddresses = (env.boundTo d.context).foldl LocalAddresses.attach {} := by
    intro d hd
    obtain ⟨hmem, hhas⟩ := List.mem_filter.1 hd
    obtain ⟨i, hi⟩ := List.mem_iff_getElem?.1 hmem
    have hfirst := h.first i d hi hhas
    exact ⟨i, hi, hhas, hfirst, h.addresses i d hi hfirst⟩
  refine ⟨?_, ?_, fun d hd => ?_, fun d hd => ?_, fun d hd hbound => ?_⟩
  · rw [← h.unfilled]
    exact (List.filter_sublist).map _
  · rw [List.Nodup, List.pairwise_map, List.pairwise_filter, List.pairwise_iff_getElem]
    intro i j hi hj hij hdi hdj hctx
    have hfi := h.first i _ (List.getElem?_eq_getElem hi) hdi
    have hfj := h.first j _ (List.getElem?_eq_getElem hj) hdj
    unfold IsFirst at hfi hfj
    rw [hctx] at hfi
    omega
  · obtain ⟨-, -, -, -, haddr⟩ := hplace d hd
    rw [haddr, LocalAddresses.foldl_attach]
    rfl
  · obtain ⟨-, -, hhas, -, haddr⟩ := hplace d hd
    rw [hasLocalAddress, haddr, LocalAddresses.any_foldl_attach] at hhas
    intro hnil
    rw [hnil] at hhas
    cases hhas
  · -- the first device of the context is kept
    have hidx : env.created.findIdx (·.context == d.context) < env.created.length :=
      List.findIdx_lt_length_of_exists ⟨d, hd, beq_self_eq_true _⟩
    obtain ⟨d₁, hd₁, hctx₁⟩ : ∃ d₁ : IbvDevice,
        env.created[env.created.findIdx (·.context == d.context)]? = some d₁ ∧ d₁.context = d.context :=
      ⟨_, List.getElem?_eq_getElem hidx, eq_of_beq (List.findIdx_getElem (w := hidx))⟩
    have hunfilled := congrArg (·[env.created.findIdx (·.context == d.context)]?) h.unfilled
    rw [hd₁, List.getElem?_map] at hunfilled
    obtain ⟨d', hd', hd'₁⟩ := Option.map_eq_some_iff.1 hunfilled
    have hctx : d'.context = d.context := by
      rw [← hctx₁, ← hd'₁]
      rfl
    have hfirst : IsFirst env.created (env.created.findIdx (·.context == d.context)) d' := by
      rw [IsFirst, hctx]
    refine ⟨d', List.mem_filter.2 ⟨List.mem_of_getElem? hd', ?_⟩, hctx⟩
    rw [hasLocalAddress, h.addresses _ d' hd' hfirst, LocalAddresses.any_foldl_attach, hctx]
    exact Bool.not_eq_true' _ ▸ (List.isEmpty_eq_false_iff.2 hbound)

/-- Nothing is discovered where nothing binds. -/
theorem Discovered.nil (h : env.created = [] ∨ env.bound = []) : Discovered env [] where
  made := List.nil_sublist _
  once := List.nodup_nil
  addresses _ hd := nomatch hd
  bound _ hd := nomatch hd
  complete := by
    intro d hd hbound
    rcases h with h | h
    · rw [h] at hd
      cases hd
    · rw [Environment.boundTo, h] at hbound
      exact absurd rfl hbound

/-- `get_devices` gives up before it has looked at an address, or keeps the devices that got one. -/
theorem getDevices_cases (env : Environment) :
    (∃ ec : ErrorCode, ec.isError = true ∧ (env.created = [] ∨ env.bound = []) ∧ getDevices env = (ec, [])) ∨
      ∃ devices, devices = (env.bound.foldl attachBound env.created).filter hasLocalAddress ∧
        getDevices env = (if devices.isEmpty then .rdma .noAvailableDevice else success, devices) := by
  have hkeep : ∀ devices : List IbvDevice,
      (if devices.isEmpty then (ErrorCode.rdma .noAvailableDevice, devices) else (success, devices)) =
        (if devices.isEmpty then .rdma .noAvailableDevice else success, devices) := by
    intro devices
    split <;> rfl
  obtain ⟨array, interfaces⟩ := env
  cases array with
  | none => exact .inl ⟨_, isError_rdma _, .inl rfl, rfl⟩
  | some array =>
    by_cases hlen : array.length = 0
    · have hnil : array = [] := List.length_eq_zero_iff.1 hlen
      subst hnil
      exact .inl ⟨_, isError_rdma _, .inl rfl, rfl⟩
    · cases interfaces with
      | error errno =>
        by_cases he : (makeSystemErrorCode errno).isError = true
        · refine .inl ⟨_, he, .inr rfl, ?_⟩
          simp only [getDevices, if_neg hlen, attachLocalAddresses, he, if_true]
        · refine .inr ⟨_, rfl, ?_⟩
          simp only [getDevices, if_neg hlen, attachLocalAddresses, he, Bool.false_eq_true, if_false,
            isError_success, hkeep]
          rfl
      | ok interfaces =>
        refine .inr ⟨_, rfl, ?_⟩
        simp only [getDevices, if_neg hlen, attachLocalAddresses, isError_success, Bool.false_eq_true, if_false,
          hkeep, foldl_attachLocalAddress]
        rfl

/-- Whatever librdmacm, the interfaces and the native calls answer, `get_devices` finds the devices it
promises; it reports an error exactly if there are none, and the manager is then not constructed. -/
theorem getDevices_discovered (env : Environment) :
    Discovered env (getDevices env).2 ∧ (getDevices env).1.isError = (getDevices env).2.isEmpty ∧
      deviceManager env =
        if (getDevices env).2.isEmpty then .error (getDevices env).1 else .ok (getDevices env).2 := by
  have hfound : Discovered env (getDevices env).2 ∧
      (getDevices env).1.isError = (getDevices env).2.isEmpty := by
    rcases getDevices_cases env with ⟨ec, hec, hnone, heq⟩ | ⟨devices, hdevices, heq⟩
    · rw [heq]
      exact ⟨.nil hnone, hec⟩
    · rw [heq]
      constructor
      · rw [hdevices]
        exact (attached_foldl env.bound fun d hd => toLocalAddresses_createDevices hd).discovered
      · cases devices <;> rfl
  refine ⟨hfound.1, hfound.2, ?_⟩
  rw [deviceManager, ← hfound.2]

/-! ## Selecting a device -/

open UseDevice (Calls Creates Sizes)

variable {config : RdmaConfig} {calls : Calls}

/-- The native calls of `use_device` succeed, and the buffer can be sized. -/
structure Succeeds (config : RdmaConfig) (calls : Calls) : Prop where
  deviceService : calls.deviceService = true
  ioCompletionService : calls.ioCompletionService = true
  compChannel : calls.compChannel = .created
  cq : calls.cq = .created
  descriptor : calls.descriptor = .registered
  sizes : Sizes config calls

/-- `use_device` on a new `io_context`, with a device that discovery found. -/
def useDiscovered (d : IbvDevice) (config : RdmaConfig) (calls : Calls) :
    UseDevice.State × UseDevice.Outcome :=
  ({} : UseDevice.State).useDevice (some d.selected) config calls

theorem untouched_initial : ({} : UseDevice.State).Untouched := ⟨rfl, rfl, rfl, rfl, rfl⟩

/-- A device that does not satisfy the configuration is refused before anything is done. -/
theorem useDiscovered_of_incompatible (h : isConfigCompatible config d.attr = false)
    (hs : calls.deviceService = true) :
    (useDiscovered d config calls).2 = .returned (.rdma .invalidConfig) := by
  have hcompat : isConfigCompatible config d.selected.attr = false := h
  simp only [useDiscovered, UseDevice.State.useDevice, hs, hcompat]
  rfl

/-- A device that satisfies it is used, if the native calls succeed. -/
theorem useDiscovered_of_compatible (h : isConfigCompatible config d.attr = true)
    (hs : Succeeds config calls) :
    (useDiscovered d config calls).2 = .returned success ∧ (useDiscovered d config calls).1.Complete ∧
      (useDiscovered d config calls).1.deviceService.device = some d.selected := by
  have hcreates : Creates d.selected config calls :=
    ⟨rfl, h, hs.deviceService, hs.ioCompletionService, hs.compChannel, hs.cq⟩
  obtain ⟨hret, hcomplete⟩ := untouched_initial.canRetry d.selected config calls hcreates hs.descriptor hs.sizes
  refine ⟨hret, hcomplete, ?_⟩
  rw [useDiscovered, untouched_initial.useDevice_of_creates hcreates, hs.descriptor]
  simp only [if_pos hs.sizes]
  rfl

/-- If the registration with the reactor fails, it is this that is reported for a device that satisfies the
configuration. -/
theorem useDiscovered_of_failed (h : isConfigCompatible config d.attr = true) (errno : UseDevice.Errno) :
    (useDiscovered d config { descriptor := .failed errno }).2 = .returned (makeSystemErrorCode errno) := by
  have hcreates : Creates d.selected config { descriptor := .failed errno } := ⟨rfl, h, rfl, rfl, rfl, rfl⟩
  rw [useDiscovered, untouched_initial.useDevice_of_creates hcreates]

/-- `get_first_available_device` returns null exactly if `use_device` refuses every device that was
discovered for the sake of the configuration; and the device it returns has an address, is the first
that is not refused, and is used with the configuration once the native calls succeed. -/
theorem selection_agrees (env : Environment) (config : RdmaConfig) :
    (getFirstAvailableDevice (getDevices env).2 config = none ↔
      ∀ d ∈ (getDevices env).2, ∀ calls : Calls, calls.deviceService = true →
        (useDiscovered d config calls).2 = .returned (.rdma .invalidConfig)) ∧
    ∀ d, getFirstAvailableDevice (getDevices env).2 config = some d →
      d.any = true ∧
      (∃ before after, (getDevices env).2 = before ++ d :: after ∧
        ∀ b ∈ before, ∀ calls : Calls, calls.deviceService = true →
          (useDiscovered b config calls).2 = .returned (.rdma .invalidConfig)) ∧
      ∀ calls : Calls, Succeeds config calls →
        (useDiscovered d config calls).2 = .returned success ∧
          (useDiscovered d config calls).1.Complete ∧
          (useDiscovered d config calls).1.deviceService.device = some d.selected := by
  constructor
  · rw [getFirstAvailableDevice, List.find?_eq_none]
    constructor
    · intro hnone d hd calls hs
      exact useDiscovered_of_incompatible (Bool.eq_false_iff.2 (hnone d hd)) hs
    · intro hrefused d hd hcompat
      -- a call whose registration fails tells the two apart
      have hfailed := useDiscovered_of_failed hcompat ⟨12, by decide⟩
      have hinvalid := hrefused d hd { descriptor := .failed ⟨12, by decide⟩ } rfl
      rw [hfailed] at hinvalid
      cases hinvalid
  · intro d hd
    have hmem := List.mem_of_find?_eq_some hd
    obtain ⟨hcompat, before, after, hsplit, hbefore⟩ := List.find?_eq_some_iff_append.1 hd
    refine ⟨?_, ⟨before, after, hsplit, fun b hb calls hs => ?_⟩, fun calls hs => ?_⟩
    · have hfound := (getDevices_discovered env).1
      rw [hfound.addresses d hmem]
      have hany := LocalAddresses.any_foldl_attach (env.boundTo d.context)
      rw [LocalAddresses.foldl_attach, List.isEmpty_eq_false_iff.2 (hfound.bound d hmem)] at hany
      exact hany
    · have hnot := hbefore b hb
      rw [Bool.not_eq_true'] at hnot
      exact useDiscovered_of_incompatible hnot hs
    · exact useDiscovered_of_compatible hcompat hs

end RdmaOnAsio.Ibv
