import Mathlib.Logic.Function.Basic
import Mathlib.Tactic.Common

/-!
Resources that are opened and closed, and who owns them.

Owns: the invariant that what has an owner is open and has one owner only, and
the steps that keep it: to open, to adopt what nobody owns, to pass on, to leave
open without an owner, and to close what one owns.

An owner has one resource at most.
-/

namespace MiniMs.Library.Owners

variable {Owner Resource : Type*}

/-- What has an owner is open, and has no other. -/
structure Owned (isOpen : Resource → Bool) (owns : Owner → Option Resource) : Prop where
  opened : ∀ {owner resource}, owns owner = some resource → isOpen resource = true
  single : ∀ {first second resource}, owns first = some resource → owns second = some resource →
    first = second

namespace Owned

variable {isOpen : Resource → Bool} {owns : Owner → Option Resource}

/-- What is closed has no owner. -/
theorem unowned (owned : Owned isOpen owns) {resource : Resource}
    (closed : isOpen resource = false) (owner : Owner) : owns owner ≠ some resource := by
  intro owning
  rw [owned.opened owning] at closed
  contradiction

/-- A resource is opened, and nobody owns it yet. -/
theorem openNew [DecidableEq Resource] (owned : Owned isOpen owns) (resource : Resource) :
    Owned (Function.update isOpen resource true) owns where
  opened := by
    intro owner other owning
    by_cases same : other = resource
    · rw [same, Function.update_self]
    · rw [Function.update_of_ne same]
      exact owned.opened owning
  single := owned.single

variable [DecidableEq Owner]

/-- Who gave up a resource. -/
theorem leave (owned : Owned isOpen owns) (owner : Owner) :
    Owned isOpen (Function.update owns owner none) where
  opened := by
    intro other resource owning
    by_cases same : other = owner
    · rw [same, Function.update_self] at owning
      contradiction
    · rw [Function.update_of_ne same] at owning
      exact owned.opened owning
  single := by
    intro first second resource owning owning'
    by_cases left : first = owner
    · rw [left, Function.update_self] at owning
      contradiction
    · by_cases right : second = owner
      · rw [right, Function.update_self] at owning'
        contradiction
      · rw [Function.update_of_ne left] at owning
        rw [Function.update_of_ne right] at owning'
        exact owned.single owning owning'

/-- An open resource that nobody owns gets an owner. -/
theorem adopt (owned : Owned isOpen owns) {resource : Resource} (opened : isOpen resource = true)
    (free : ∀ owner, owns owner ≠ some resource) (owner : Owner) :
    Owned isOpen (Function.update owns owner (some resource)) where
  opened := by
    intro other held owning
    by_cases same : other = owner
    · rw [same, Function.update_self] at owning
      rw [← Option.some.inj owning]
      exact opened
    · rw [Function.update_of_ne same] at owning
      exact owned.opened owning
  single := by
    intro first second held owning owning'
    by_cases left : first = owner
    · by_cases right : second = owner
      · rw [left, right]
      · rw [left, Function.update_self] at owning
        rw [Function.update_of_ne right, ← owning] at owning'
        exact absurd owning' (free second)
    · rw [Function.update_of_ne left] at owning
      by_cases right : second = owner
      · rw [right, Function.update_self] at owning'
        rw [← owning'] at owning
        exact absurd owning (free first)
      · rw [Function.update_of_ne right] at owning'
        exact owned.single owning owning'

/-- One owner passes a resource on to another. -/
theorem pass (owned : Owned isOpen owns) {giver : Owner} {resource : Resource}
    (owning : owns giver = some resource) (taker : Owner) :
    Owned isOpen (Function.update (Function.update owns giver none) taker (some resource)) := by
  refine (owned.leave giver).adopt (owned.opened owning) ?_ taker
  intro owner
  by_cases same : owner = giver
  · rw [same, Function.update_self]
    intro equal
    contradiction
  · rw [Function.update_of_ne same]
    exact fun other => same (owned.single other owning)

/-- An owner closes what it owns. -/
theorem close [DecidableEq Resource] (owned : Owned isOpen owns) {owner : Owner}
    {resource : Resource} (owning : owns owner = some resource) :
    Owned (Function.update isOpen resource false) (Function.update owns owner none) where
  opened := by
    intro other held owning'
    by_cases same : other = owner
    · rw [same, Function.update_self] at owning'
      contradiction
    · rw [Function.update_of_ne same] at owning'
      have different : held ≠ resource := by
        intro equal
        rw [equal] at owning'
        exact same (owned.single owning' owning)
      rw [Function.update_of_ne different]
      exact owned.opened owning'
  single := (owned.leave owner).single

end Owned

end MiniMs.Library.Owners
