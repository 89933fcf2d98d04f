import RdmaOnAsio.Lts.Basic

/-!
# Mailboxes

A mailbox is what a delivery mechanism amounts to: values are sent, and each of them is received once, in
the order in which they were sent. A system that simulates a mailbox loses nothing, repeats nothing and
does not reorder.
-/

namespace RdmaOnAsio

universe u

/-- Everything that has been sent, and everything that has been received. -/
structure Mailbox (α : Type u) where
  sent : List α := []
  received : List α := []

namespace Mailbox

variable {α : Type u}

/-- What happens to a mailbox. -/
inductive Label (α : Type u)
  | send (x : α)
  | receive (x : α)

/-- A value can be sent at any time; it is received when all values sent before it have been. -/
def step [DecidableEq α] (m : Mailbox α) : Label α → Option (Mailbox α)
  | .send x => some { m with sent := m.sent ++ [x] }
  | .receive x =>
    if m.sent[m.received.length]? = some x then
      some { m with received := m.received ++ [x] }
    else
      none

end Mailbox

/-- The system of one mailbox. -/
def mailbox (α : Type u) [DecidableEq α] : StepSystem (Mailbox α) (Mailbox.Label α) := ⟨Mailbox.step⟩

namespace Mailbox

variable {α : Type u} [DecidableEq α] {m m' : Mailbox α}

theorem step_receive {x : α} {rest : List α} (h : m.sent = m.received ++ x :: rest) :
    m.step (.receive x) = some { m with received := m.received ++ [x] } := by
  simp [step, h]

theorem prefix_step {l : Label α} (hs : m.step l = some m') (h : m.received <+: m.sent) :
    m'.received <+: m'.sent := by
  obtain ⟨rest, hrest⟩ := h
  cases l with
  | send x =>
    obtain rfl := Option.some.inj hs
    exact ⟨rest ++ [x], by simp [← hrest]⟩
  | receive x =>
    simp only [step, Option.ite_none_right_eq_some, Option.some.injEq] at hs
    obtain ⟨hx, rfl⟩ := hs
    rw [← hrest, List.getElem?_append_right (Nat.le_refl _), Nat.sub_self] at hx
    cases rest with
    | nil => simp at hx
    | cons y rest =>
      obtain rfl : y = x := by simpa using hx
      exact ⟨rest, by simp [← hrest]⟩

/-- Nothing is received twice, out of order, or without having been sent. -/
theorem received_prefix {ls : List (Label α)} (hr : (mailbox α).run {} ls = some m) :
    m.received <+: m.sent :=
  StepSystem.invariant (M := mailbox α) (I := fun m => m.received <+: m.sent)
    (fun _ _ _ h hs => prefix_step hs h) hr (List.prefix_refl [])

end Mailbox

end RdmaOnAsio
