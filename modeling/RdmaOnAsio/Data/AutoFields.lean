import Mathlib.Tactic.Common
import Mathlib.Order.Notation

/-!
# Settings with a value that means "choose for me"

A record of settings is a function from field names to values in which one value, `unset`, leaves the
choice to the device. `derive` fills the unset fields in; `Compatible` checks the fields that are set
against the limits of the device, where a field may have no limit at all. The two agree as soon as
the automatic choices respect the limits themselves: filling in neither repairs nor breaks a record.
-/

namespace RdmaOnAsio

namespace AutoFields

universe u v

variable {ι : Type u} {α : Type v}

/-! ## Filling in -/

section Derive

variable [DecidableEq α] {unset : α} {auto user : ι → α} {i : ι}

/-- The unset fields of `user` take their automatic choice. -/
def derive (unset : α) (auto user : ι → α) : ι → α := fun i =>
  if user i = unset then auto i else user i

theorem derive_of_unset (h : user i = unset) : derive unset auto user i = auto i := by
  rw [derive, if_pos h]

theorem derive_of_set (h : user i ≠ unset) : derive unset auto user i = user i := by
  rw [derive, if_neg h]

theorem derive_derive : derive unset auto (derive unset auto user) = derive unset auto user := by
  funext i
  by_cases h : user i = unset
  · by_cases ha : auto i = unset
    · rw [derive_of_unset (by rw [derive_of_unset h, ha]), derive_of_unset h]
    · exact derive_of_set (by rw [derive_of_unset h]; exact ha)
  · exact derive_of_set (by rw [derive_of_set h]; exact h)

end Derive

/-! ## Limits -/

section Limits

variable [LE α]

/-- The set fields of `user` are within the limits. -/
def Compatible (unset : α) (cap : ι → Option α) (user : ι → α) : Prop :=
  ∀ i, ∀ m ∈ cap i, user i = unset ∨ user i ≤ m

/-- All fields of `user`, set or not, are within the limits. -/
def Within (cap : ι → Option α) (user : ι → α) : Prop :=
  ∀ i, ∀ m ∈ cap i, user i ≤ m

variable {unset : α} {cap : ι → Option α} {auto user : ι → α}

theorem Within.compatible (h : Within cap user) : Compatible unset cap user :=
  fun i m hm => .inr (h i m hm)

theorem Compatible.within (h : Compatible unset cap user) (hbot : ∀ m : α, unset ≤ m) :
    Within cap user := by
  intro i m hm
  obtain hu | hle := h i m hm
  · rw [hu]
    exact hbot m
  · exact hle

variable [DecidableEq α]

/-- Automatic choices within the limits neither repair nor break a record. -/
theorem compatible_derive_iff (hauto : Within cap auto) :
    Compatible unset cap (derive unset auto user) ↔ Compatible unset cap user := by
  constructor
  · intro h i m hm
    by_cases hu : user i = unset
    · exact .inl hu
    · have hd := h i m hm
      rwa [derive_of_set hu] at hd
  · intro h i m hm
    by_cases hu : user i = unset
    · rw [derive_of_unset hu]
      exact .inr (hauto i m hm)
    · rw [derive_of_set hu]
      exact h i m hm

/-- A compatible record is within the limits once it is filled in. -/
theorem within_derive (hauto : Within cap auto) (h : Compatible unset cap user) :
    Within cap (derive unset auto user) := by
  intro i m hm
  by_cases hu : user i = unset
  · rw [derive_of_unset hu]
    exact hauto i m hm
  · rw [derive_of_set hu]
    exact (h i m hm).resolve_left hu

end Limits

end AutoFields

end RdmaOnAsio
