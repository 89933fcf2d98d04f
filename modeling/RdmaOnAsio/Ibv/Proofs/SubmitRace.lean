import RdmaOnAsio.Ibv.Submit

/-!
# The submitter and the reaping thread

Between the native post and the read of `ec_` the submitter still uses an op that may already be completed.
As long as nobody resolves a failed completion, or completes the op, in that window, the op goes through the
stages below: its handler is invoked once, with what its CQE says, and nothing uses it afterwards.
-/

namespace RdmaOnAsio.Ibv

open ErrorCode

namespace Submission

variable {sub : Submission} {s s' : State} {pc : Pc} {wc : Wc} {o : VerbsOp} {ec : ErrorCode} {l : Label}
  {ls : List Label}

/-- The submitter has posted the work request and still has to read `ec_`. -/
def Pc.deciding : Pc → Bool
  | .writeEc _ | .readEc => true
  | _ => false

/-- Nobody resolves a failed completion, or completes the op, while the submitter is deciding. -/
def undisturbed (s : State) : Label → Bool
  | .resolve => !s.pc.deciding || s.cqe.all fun wc => wc.status == .success
  | .complete => !s.pc.deciding
  | _ => true

/-! ## What the handler should get -/

/-- What `do_post_*` makes of the buffers. -/
def prepared (sub : Submission) : Prepared := sub.kind.doPost sub.limits sub.buffers

/-- The bytes the op was posted with, as far as the op records them. -/
def postedBytes (sub : Submission) : Nat :=
  match sub.prepared with
  | .post _ n => n.getD 0
  | .immediate _ => 0

/-- The error code and the byte count of a CQE. A send or a write that succeeds counts its posted bytes. -/
def report (sub : Submission) (wc : Wc) : ErrorCode × Nat :=
  (wcStatusToEc wc.status,
    if wc.status = .success then
      if wc.opcode = .send ∨ wc.opcode = .rdmaWrite then sub.postedBytes else wc.byteLen
    else
      0)

/-- What the handler should get: what its CQE says, or why the op was not posted. -/
def State.outcome (sub : Submission) (s : State) : Option (ErrorCode × Nat) :=
  match s.cqe with
  | some wc => some (sub.report wc)
  | none => s.refused.map fun ec => (ec, 0)

/-- An op that has been resolved. -/
def resolvedOp (sub : Submission) (wc : Wc) : VerbsOp :=
  ⟨(sub.report wc).1, (sub.report wc).2⟩

theorem handlerArgs_resolvedOp {kind : OpType} :
    (sub.resolvedOp wc).handlerArgs kind = sub.report wc := by
  by_cases hs : wc.status = .success
  · have hne : (wcStatusToEc wc.status).isError = false := by rw [hs]; rfl
    simp [VerbsOp.handlerArgs, resolvedOp, report, hne]
  · simp [VerbsOp.handlerArgs, resolvedOp, report, hs]

/-- Resolving stamps the op that was posted with what the CQE says. -/
theorem stamp_posted {r : Resolved} (h : resolveVerbsOp wc = some r) :
    r.stamp { bytesTransferred := sub.postedBytes } = sub.resolvedOp wc := by
  unfold resolveVerbsOp at h
  split_ifs at h with h0 hs ho <;> obtain rfl := Option.some.inj h
  · simp [Resolved.stamp, resolvedOp, report, hs, ho, wcStatusToEc]
  · simp [Resolved.stamp, resolvedOp, report, hs, ho, wcStatusToEc]
  · simp [Resolved.stamp, resolvedOp, report, hs]

theorem isSome_of_doPost {max : Nat} {sets : Bool} {bs : BufferSequence} {sges : List NativeSge}
    {n : Option Nat} (h : Ibv.doPost max sets bs = .post sges n) : n.isSome = sets := by
  have hsome : ∀ m : Nat, (if sets = true then some m else none).isSome = sets := by
    intro m
    cases sets <;> rfl
  cases bs with
  | single b =>
    simp only [Ibv.doPost] at h
    split at h
    · cases h
    · split at h
      · cases h
      · cases h
      · injection h with _ hn
        rw [← hn]
        exact hsome _
  | sequence bs =>
    simp only [Ibv.doPost] at h
    split at h
    · cases h
    · split at h
      · cases h
      · split at h
        · cases h
        · injection h with _ hn
          rw [← hn]
          exact hsome _

/-- The ops that record posted bytes are those whose `do_complete` clears the byte count on an error. -/
theorem isSome_of_prepared {sges : List NativeSge} {n : Option Nat}
    (h : sub.prepared = .post sges n) : n.isSome = sub.kind.clearsBytes := by
  unfold prepared at h
  cases hk : sub.kind <;> rw [hk] at h <;> exact isSome_of_doPost h

/-! ## The stages of an op -/

/-- Where the submitter can be once the work request is accepted. -/
def Pc.accepted : Pc → Bool
  | .writeEc rc => rc == 0
  | .readEc | .finish false | .returned => true
  | .doPost | .nativePost | .finish true => false

/-- The states of a run in which nobody interferes with the submitter: first those of an op that gets no
CQE, then those of an accepted work request, which the submitter follows at its own pace. -/
inductive Stage (sub : Submission) : State → Prop
  | entered : Stage sub {}
  | ready {sges : List NativeSge} {n : Option Nat} (hp : sub.prepared = .post sges n) :
    Stage sub { pc := .nativePost, op := { bytesTransferred := n.getD 0 } }
  | refused {rc : Int} {sges : List NativeSge} {n : Option Nat} (hp : sub.prepared = .post sges n)
    (hrc : rc ≠ 0) :
    Stage sub
      { pc := .writeEc rc, op := { bytesTransferred := n.getD 0 }
        refused := some (makeSystemErrorCode rc) }
  | failed {o : VerbsOp} (he : o.ec.isError = true) (ha : o.handlerArgs sub.kind = (o.ec, 0)) :
    Stage sub { pc := .readEc, op := o, refused := some o.ec }
  | finishing {o : VerbsOp} (ha : o.handlerArgs sub.kind = (o.ec, 0)) :
    Stage sub { pc := .finish true, op := o, refused := some o.ec }
  | handed {o : VerbsOp} (ha : o.handlerArgs sub.kind = (o.ec, 0)) :
    Stage sub { pc := .returned, op := o, immediate := 1, refused := some o.ec }
  | reported {o : VerbsOp} :
    Stage sub
      { pc := .returned, op := o, completed := true, refused := some o.ec, invoked := [(o.ec, 0)] }
  | posted {pc : Pc} (hpc : pc.accepted = true) :
    Stage sub { pc := pc, op := { bytesTransferred := sub.postedBytes }, wr := .posted }
  | completed {pc : Pc} {wc : Wc} (hpc : pc.accepted = true) (hw : wc.wrId ≠ 0) :
    Stage sub
      { pc := pc, op := { bytesTransferred := sub.postedBytes }, wr := .completed wc, cqe := some wc }
  | resolved {pc : Pc} {wc : Wc} (hpc : pc.accepted = true)
    (hd : pc.deciding = true → wc.status = .success) :
    Stage sub { pc := pc, op := sub.resolvedOp wc, wr := .resolved, cqe := some wc }
  | reaped {pc : Pc} {wc : Wc} (hpc : pc.accepted = true) (hd : pc.deciding = false) :
    Stage sub
      { pc := pc, op := sub.resolvedOp wc, wr := .reaped, completed := true, cqe := some wc
        invoked := [sub.report wc] }

/-- An op that is not completed can be used. -/
theorem access_of_live (h : s.completed = false) : s.access = s := by
  have hm : (s.misused || s.completed) = s.misused := by rw [h, Bool.or_false]
  rw [State.access, hm]

/-- After the work request was accepted, the submitter only moves on: it writes the success that is
there and reads it. -/
theorem submit_accepted (hpc : s.pc.accepted = true)
    (hec : s.pc.deciding = true → s.op.ec = success ∧ s.completed = false)
    (hs : s.submit sub = some s') :
    ∃ pc, s' = { s with pc := pc } ∧ pc.accepted = true ∧
      (pc.deciding = true → s.pc.deciding = true) := by
  cases hq : s.pc with
  | doPost => simp [hq, Pc.accepted] at hpc
  | nativePost => simp [hq, Pc.accepted] at hpc
  | writeEc rc =>
    obtain ⟨hsucc, hc⟩ := hec (by rw [hq]; rfl)
    obtain rfl : rc = 0 := by simpa [hq, Pc.accepted] using hpc
    simp only [State.submit, hq, access_of_live hc] at hs
    obtain rfl := Option.some.inj hs
    have hop : ({ s.op with ec := postResult 0 } : VerbsOp) = s.op := by
      rw [show postResult 0 = s.op.ec from hsucc.symm]
    exact ⟨.readEc, by rw [← hop], rfl, fun _ => rfl⟩
  | readEc =>
    obtain ⟨hsucc, hc⟩ := hec (by rw [hq]; rfl)
    simp only [State.submit, hq, access_of_live hc, hsucc, isError_success] at hs
    obtain rfl := Option.some.inj hs
    exact ⟨.finish false, rfl, rfl, fun _ => rfl⟩
  | finish immediate =>
    cases immediate with
    | false =>
      simp only [State.submit, hq] at hs
      obtain rfl := Option.some.inj hs
      exact ⟨.returned, rfl, rfl, fun h => h⟩
    | true => simp [hq, Pc.accepted] at hpc
  | returned =>
    simp only [State.submit, hq] at hs
    cases hs

/-- A refused post is reported with no bytes. -/
theorem handlerArgs_refused {rc : Int} {sges : List NativeSge} {n : Option Nat}
    (hp : sub.prepared = .post sges n) (hrc : rc ≠ 0) :
    VerbsOp.handlerArgs sub.kind ⟨makeSystemErrorCode rc, n.getD 0⟩ = (makeSystemErrorCode rc, 0) := by
  have he : (makeSystemErrorCode rc).isError = true := by
    simpa [makeSystemErrorCode, isError] using hrc
  have hn := isSome_of_prepared hp
  cases hc : sub.kind.clearsBytes with
  | true => simp [VerbsOp.handlerArgs, hc, he]
  | false =>
    rw [hc] at hn
    have hnone : n = none := by simpa using hn
    simp [VerbsOp.handlerArgs, hc, hnone]

/-- The submitter's steps lead from stage to stage. -/
theorem Stage.submit (h : Stage sub s) (hs : s.submit sub = some s') : Stage sub s' := by
  cases h with
  | entered =>
    simp only [State.submit] at hs
    split at hs <;> obtain rfl := Option.some.inj hs
    · exact .finishing (by cases sub.kind <;> rfl)
    · next ec hp => exact .finishing (by cases hk : sub.kind <;> simp [VerbsOp.handlerArgs])
    · next sges hp => exact .ready hp
    · next sges n hp => exact .ready hp
  | ready hp => cases hs
  | refused hp hrc =>
    obtain rfl := Option.some.inj hs
    rw [postResult, if_pos hrc]
    exact .failed (by simpa [makeSystemErrorCode, isError] using hrc) (handlerArgs_refused hp hrc)
  | failed he ha =>
    obtain rfl := Option.some.inj hs
    rw [he]
    exact .finishing ha
  | finishing ha =>
    simp only [State.submit] at hs
    split at hs <;> obtain rfl := Option.some.inj hs <;> exact .handed ha
  | handed ha => cases hs
  | reported => cases hs
  | posted hpc =>
    obtain ⟨pc, rfl, hacc, -⟩ := submit_accepted hpc (fun _ => ⟨rfl, rfl⟩) hs
    exact .posted hacc
  | completed hpc hw =>
    obtain ⟨pc, rfl, hacc, -⟩ := submit_accepted hpc (fun _ => ⟨rfl, rfl⟩) hs
    exact .completed hacc hw
  | resolved hpc hd =>
    obtain ⟨pc, rfl, hacc, hdec⟩ :=
      submit_accepted hpc (fun h => ⟨by simp [resolvedOp, report, hd h, wcStatusToEc], rfl⟩) hs
    exact .resolved hacc fun h => hd (hdec h)
  | reaped hpc hd =>
    obtain ⟨pc, rfl, hacc, hdec⟩ := submit_accepted hpc (fun h => absurd h (by simp [hd])) hs
    refine .reaped hacc ?_
    cases hq : pc.deciding with
    | false => rfl
    | true => exact (hdec hq).symm.trans hd

/-- The op of an accepted work request. -/
theorem postedOp_eq {sges : List NativeSge} {n : Option Nat} (hp : sub.prepared = .post sges n) :
    n.getD 0 = sub.postedBytes := by
  rw [postedBytes, hp]

theorem Stage.nativePost (h : Stage sub s) {rc : Int} (hs : s.nativePost rc = some s') :
    Stage sub s' := by
  unfold State.nativePost at hs
  split at hs
  · next hpc =>
    have haccepted : ∀ pc : Pc, pc.accepted = true → pc ≠ .nativePost := by
      rintro _ hacc rfl
      cases hacc
    cases h with
    | ready hp =>
      split at hs <;> obtain rfl := Option.some.inj hs
      · next hrc =>
        rw [postedOp_eq hp]
        exact .posted (by simp [Pc.accepted, hrc])
      · next hrc => exact .refused hp hrc
    | posted hacc => exact absurd hpc (haccepted _ hacc)
    | completed hacc _ => exact absurd hpc (haccepted _ hacc)
    | resolved hacc _ => exact absurd hpc (haccepted _ hacc)
    | reaped hacc _ => exact absurd hpc (haccepted _ hacc)
    | _ => cases hpc
  · cases hs

theorem Stage.hca (h : Stage sub s) {status : WcStatus} {opcode : WcOpcode} {byteLen : Nat}
    (hs : s.hca sub status opcode byteLen = some s') : Stage sub s' := by
  unfold State.hca at hs
  split at hs
  · next hwr =>
    obtain rfl := Option.some.inj hs
    cases h with
    | posted hacc => exact .completed hacc sub.addr_ne
    | _ => cases hwr
  · cases hs

/-- A completion that is resolved stamps the op: its error code changes only if the submitter does not
look at it any more. -/
theorem Stage.resolve (h : Stage sub s) (hd : undisturbed s .resolve = true)
    (hs : s.resolve = some s') : Stage sub s' := by
  cases h with
  | @completed pc wc hacc hw =>
    obtain ⟨r, hr⟩ := Option.isSome_iff_exists.1 (resolveVerbsOp_isSome.2 hw)
    simp only [State.resolve, hr] at hs
    obtain rfl := Option.some.inj hs
    rw [stamp_posted hr]
    refine .resolved hacc fun hdec => ?_
    have hst : (!pc.deciding || wc.status == .success) = true := hd
    rw [show pc.deciding = true from hdec] at hst
    simpa using hst
  | _ => cases hs

/-- The completion of a resolved op comes after the submitter's last use of it. -/
theorem Stage.complete (h : Stage sub s) (hd : undisturbed s .complete = true)
    (hs : s.step sub .complete = some s') : Stage sub s' := by
  simp only [State.step] at hs
  split at hs
  · next hwr =>
    obtain rfl := Option.some.inj hs
    cases h with
    | @resolved pc wc hacc _ =>
      have hdec : pc.deciding = false := by simpa [undisturbed] using hd
      rw [State.complete, access_of_live rfl, handlerArgs_resolvedOp]
      exact .reaped hacc hdec
    | _ => cases hwr
  · cases hs

theorem Stage.runImmediate (h : Stage sub s) (hs : s.step sub .runImmediate = some s') :
    Stage sub s' := by
  simp only [State.step] at hs
  split at hs
  · next hpos =>
    obtain rfl := Option.some.inj hs
    cases h with
    | handed ha =>
      rw [State.complete, access_of_live rfl, ha]
      exact .reported
    | _ => cases hpos
  · cases hs

/-- Every step that does not disturb the submitter leads from stage to stage. -/
theorem Stage.step (h : Stage sub s) (hd : undisturbed s l = true) (hs : s.step sub l = some s') :
    Stage sub s' := by
  cases l with
  | submit => exact h.submit hs
  | nativePost rc => exact h.nativePost hs
  | hca status opcode byteLen => exact h.hca hs
  | resolve => exact h.resolve hd hs
  | complete => exact h.complete hd hs
  | runImmediate => exact h.runImmediate hs

/-! ## The end of a run -/

/-- The steps that are left to the submitter. -/
def Pc.remaining : Pc → Nat
  | .doPost => 9
  | .nativePost => 8
  | .writeEc _ => 4
  | .readEc => 3
  | .finish _ => 2
  | .returned => 0

/-- The steps that are left to the HCA and the reaping thread. -/
def Wr.remaining : Wr → Nat
  | .posted => 3
  | .completed _ => 2
  | .resolved => 1
  | .unposted | .reaped => 0

/-- The steps that are left. -/
def State.remaining (s : State) : Nat := s.pc.remaining + s.wr.remaining + s.immediate

theorem remaining_submit (hs : s.submit sub = some s') : s'.remaining < s.remaining := by
  cases hpc : s.pc with
  | doPost =>
    simp only [State.submit, hpc] at hs
    split at hs <;> obtain rfl := Option.some.inj hs <;> simp [State.remaining, Pc.remaining, hpc]
  | nativePost => simp [State.submit, hpc] at hs
  | writeEc rc =>
    simp only [State.submit, hpc] at hs
    obtain rfl := Option.some.inj hs
    simp [State.remaining, Pc.remaining, State.access, hpc]
  | readEc =>
    simp only [State.submit, hpc] at hs
    obtain rfl := Option.some.inj hs
    simp [State.remaining, Pc.remaining, State.access, hpc]
  | finish immediate =>
    cases immediate with
    | false =>
      simp only [State.submit, hpc] at hs
      obtain rfl := Option.some.inj hs
      simp [State.remaining, Pc.remaining, hpc]
    | true =>
      simp only [State.submit, hpc] at hs
      split at hs <;> obtain rfl := Option.some.inj hs <;>
        simp [State.remaining, Pc.remaining, State.access, hpc] <;> omega
  | returned => simp [State.submit, hpc] at hs

/-- Every step is one of those that are left, so that a run comes to an end. -/
theorem remaining_step (hs : s.step sub l = some s') : s'.remaining < s.remaining := by
  cases l with
  | submit => exact remaining_submit hs
  | nativePost rc =>
    simp only [State.step, State.nativePost] at hs
    split at hs
    · next hpc =>
      split at hs <;> obtain rfl := Option.some.inj hs <;>
        simp [State.remaining, Pc.remaining, Wr.remaining, hpc]
      omega
    · cases hs
  | hca status opcode byteLen =>
    simp only [State.step, State.hca] at hs
    split at hs
    · next hwr =>
      obtain rfl := Option.some.inj hs
      simp [State.remaining, Wr.remaining, hwr]
    · cases hs
  | resolve =>
    simp only [State.step, State.resolve] at hs
    split at hs
    · next wc hwr =>
      split at hs <;> obtain rfl := Option.some.inj hs <;>
        simp [State.remaining, Wr.remaining, State.access, hwr]
    · cases hs
  | complete =>
    simp only [State.step] at hs
    split at hs
    · next hwr =>
      obtain rfl := Option.some.inj hs
      simp [State.remaining, Wr.remaining, State.complete, State.access, hwr]
    · cases hs
  | runImmediate =>
    simp only [State.step] at hs
    split at hs
    · next hpos =>
      obtain rfl := Option.some.inj hs
      simp only [State.remaining, State.complete, State.access]
      omega
    · cases hs

/-- The submitter can take its step when it is not about to make the native call. -/
theorem submit_enabled (h1 : s.pc ≠ .nativePost) (h2 : s.pc ≠ .returned) :
    ∃ s', s.step sub .submit = some s' := by
  simp only [State.step, State.submit]
  split
  · split <;> exact ⟨_, rfl⟩
  · next hpc => exact absurd hpc h1
  · exact ⟨_, rfl⟩
  · exact ⟨_, rfl⟩
  · exact ⟨_, rfl⟩
  · split <;> exact ⟨_, rfl⟩
  · next hpc => exact absurd hpc h2

theorem resolve_enabled (hwr : s.wr = .completed wc) (hw : wc.wrId ≠ 0) :
    ∃ s', s.step sub .resolve = some s' := by
  obtain ⟨r, hr⟩ := Option.isSome_iff_exists.1 (resolveVerbsOp_isSome.2 hw)
  simp only [State.step, State.resolve, hwr, hr]
  exact ⟨_, rfl⟩

/-- Until the handler is invoked somebody can go on without disturbing the submitter. -/
theorem Stage.enabled (h : Stage sub s) (hinv : s.invoked = []) :
    ∃ l s', undisturbed s l = true ∧ s.step sub l = some s' := by
  have hsubmit : s.pc ≠ .nativePost → s.pc ≠ .returned →
      ∃ l s', undisturbed s l = true ∧ s.step sub l = some s' := fun h1 h2 =>
    let ⟨s', hs'⟩ := submit_enabled h1 h2
    ⟨.submit, s', rfl, hs'⟩
  have hresolve : ∀ wc, s.wr = .completed wc → wc.wrId ≠ 0 → ∃ s', s.step sub .resolve = some s' :=
    fun _ hwr hw => resolve_enabled hwr hw
  cases h with
  | entered => exact hsubmit Pc.noConfusion Pc.noConfusion
  | ready hp => exact ⟨.nativePost 0, _, rfl, rfl⟩
  | refused hp hrc => exact hsubmit Pc.noConfusion Pc.noConfusion
  | failed he ha => exact hsubmit Pc.noConfusion Pc.noConfusion
  | finishing ha => exact hsubmit Pc.noConfusion Pc.noConfusion
  | handed ha => exact ⟨.runImmediate, _, rfl, rfl⟩
  | reported => cases hinv
  | posted hacc => exact ⟨.hca .success .send 0, _, rfl, rfl⟩
  | @completed pc wc hacc hw =>
    cases hdec : pc.deciding with
    | false =>
      obtain ⟨s', hs'⟩ := hresolve wc rfl hw
      exact ⟨.resolve, s', by simp [undisturbed, hdec], hs'⟩
    | true =>
      refine hsubmit ?_ ?_ <;> intro (hpc : pc = _) <;> rw [hpc] at hdec <;> cases hdec
  | @resolved pc wc hacc hd =>
    cases hdec : pc.deciding with
    | false => exact ⟨.complete, _, by simp [undisturbed, hdec], rfl⟩
    | true =>
      refine hsubmit ?_ ?_ <;> intro (hpc : pc = _) <;> rw [hpc] at hdec <;> cases hdec
  | reaped hacc hd => cases hinv

/-- What holds at every stage. -/
theorem Stage.outcome (h : Stage sub s) :
    s.misused = false ∧ (s.invoked = [] ∨ ∃ r, s.outcome sub = some r ∧ s.invoked = [r]) := by
  cases h with
  | reported => exact ⟨rfl, .inr ⟨_, rfl, rfl⟩⟩
  | reaped hacc hd => exact ⟨rfl, .inr ⟨_, rfl, rfl⟩⟩
  | _ => exact ⟨rfl, .inl rfl⟩

/-- Let nobody resolve a failed completion, or complete the op, between the native post and the submitter's
read of `ec_`. Then no step uses the op after it was completed, the handler is invoked at most once and with
what the CQE says, somebody can go on until it has been invoked, and the run comes to an end. -/
theorem handler_once (hr : sub.system.run {} ls = some s)
    (hm : sub.system.Meets (fun s l => undisturbed s l = true) {} ls) :
    s.misused = false ∧
      (s.invoked = [] ∨ ∃ r, s.outcome sub = some r ∧ s.invoked = [r]) ∧
      (s.invoked = [] → ∃ l s', undisturbed s l = true ∧ sub.system.step s l = some s') ∧
      ls.length ≤ 9 := by
  have h : Stage sub s := StepSystem.invariant_of_meets (I := Stage sub)
    (fun _ _ _ h hd hs => h.step hd hs) hr hm .entered
  have hlen := sub.system.length_le_of_rank (v := State.remaining) (fun _ _ _ hs => remaining_step hs) hr
  exact ⟨h.outcome.1, h.outcome.2, h.enabled, Nat.le_trans (Nat.le_add_left _ _) hlen⟩

/-- A send of eight bytes in event mode. -/
def eventSend : Submission :=
  { kind := .postSend, mode := .event, buffers := .single ⟨4096, 8, 1⟩, addr := 64, addr_ne := by decide }

/-- A successful completion is resolved while the submitter is deciding; the op is completed afterwards. -/
def resolveEarly : List Label :=
  [.submit, .nativePost 0, .hca .success .send 0, .resolve, .submit, .submit, .complete, .submit]

/-- The handler gets the posted bytes. -/
theorem handler_once_resolveEarly :
    let s := eventSend.system.after {} resolveEarly
    s.misused = false ∧ s.invoked = [(success, 8)] ∧ s.outcome eventSend = some (success, 8) := by
  have hr : (eventSend.system.run {} resolveEarly).isSome = true := by decide
  have h := handler_once (StepSystem.run_after hr) (by decide)
  exact ⟨h.1, by decide, by decide⟩

/-- A flushed work request is resolved before the submitter writes `ec_`. -/
def flushBeforeWrite : List Label :=
  [.submit, .nativePost 0, .hca .wrFlushErr .send 0, .resolve, .submit, .submit, .submit, .complete]

/-- A flushed work request is resolved before the submitter reads `ec_`. -/
def flushBeforeRead : List Label :=
  [.submit, .nativePost 0, .submit, .hca .wrFlushErr .send 0, .resolve, .submit, .submit, .complete,
    .runImmediate]

/-- A successful op is completed before the submitter writes `ec_`. -/
def completeBeforeWrite : List Label :=
  [.submit, .nativePost 0, .hca .success .send 0, .resolve, .complete, .submit]

/-- Without the condition the handler of a flushed op can report success or be invoked twice, and a freed op
can be written. -/
theorem not_handler_once :
    (¬ ∀ (sub : Submission) (ls : List Label) (s : State), sub.system.run {} ls = some s →
      s.misused = false ∧ (s.invoked = [] ∨ ∃ r, s.outcome sub = some r ∧ s.invoked = [r])) ∧
      (eventSend.system.after {} flushBeforeWrite).invoked = [(success, 0)] ∧
      (eventSend.system.after {} flushBeforeRead).invoked =
        [(operationAborted, 0), (operationAborted, 0)] ∧
      (eventSend.system.after {} completeBeforeWrite).misused = true := by
  refine ⟨fun h => ?_, by decide, by decide, by decide⟩
  have hr : (eventSend.system.run {} completeBeforeWrite).isSome = true := by decide
  have hm := (h eventSend completeBeforeWrite _ (StepSystem.run_after hr)).1
  revert hm
  decide

end Submission

end RdmaOnAsio.Ibv
