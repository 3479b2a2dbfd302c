-- SUMMARY: A bounded broadcast channel: a ring of the last events, and receivers that can fall behind it.
import Mathlib.Data.List.Basic

/-! # Broadcast channels

Every event sent takes the next position, and only the events at the last
`capacity` positions are retained. A receiver is the position that it reads
next. A receiver that has fallen behind the retained events is told so once, and
goes on with the oldest of them. -/

namespace Broadcast

variable {ε : Type} {capacity : Nat}

/-- A channel: the position of the next event, and the retained events, oldest
    first. -/
structure Channel (ε : Type) (capacity : Nat) where
  tail : Nat
  retained : List ε
  length_eq : retained.length = min tail capacity

/-- What a receiver gets, with the position that it reads next. -/
inductive Received (ε : Type) where
  | empty
  | lagged (next : Nat)
  | event (e : ε) (next : Nat)
deriving DecidableEq

namespace Channel

def empty : Channel ε capacity := ⟨0, [], by simp⟩

/-- The position of the oldest retained event. -/
def head (channel : Channel ε capacity) : Nat := channel.tail - channel.retained.length

/-- A channel with one more event, at its tail. -/
def send (channel : Channel ε capacity) (e : ε) : Channel ε capacity where
  tail := channel.tail + 1
  retained := (channel.retained ++ [e]).drop (channel.retained.length + 1 - capacity)
  length_eq := by
    have hlength := channel.length_eq
    simp only [List.length_drop, List.length_append, List.length_singleton]
    omega

/-- What a receiver gets that reads at `next`. -/
def recv (channel : Channel ε capacity) (next : Nat) : Received ε :=
  if next < channel.head then .lagged channel.head
  else
    match channel.retained[next - channel.head]? with
    | some e => .event e (next + 1)
    | none => .empty

variable {channel : Channel ε capacity} {next next' : Nat}

@[simp] theorem tail_send (e : ε) : (channel.send e).tail = channel.tail + 1 := rfl

/-- With room for an event, a receiver is told to go on with one that is there. -/
theorem recv_eq_lagged (hcapacity : 0 < capacity) (h : channel.recv next = .lagged next') :
    next' < channel.tail := by
  have hlength := channel.length_eq
  unfold recv at h
  split at h
  · rename_i hlt
    obtain rfl := Received.lagged.inj h
    unfold head at hlt ⊢
    omega
  · split at h <;> cases h

/-- An event is at the position read, and the next one is behind it. -/
theorem recv_eq_event {e : ε} (h : channel.recv next = .event e next') :
    next < channel.tail ∧ next' = next + 1 := by
  have hlength := channel.length_eq
  unfold recv at h
  split at h
  · cases h
  · split at h
    · rename_i hget
      obtain ⟨-, rfl⟩ := Received.event.inj h
      obtain ⟨hlt, -⟩ := List.getElem?_eq_some_iff.mp hget
      unfold head at hlt
      exact ⟨by omega, rfl⟩
    · cases h

/-- A receiver that is not ahead of the channel gets nothing exactly at its tail. -/
theorem recv_eq_empty_iff (h : next ≤ channel.tail) :
    channel.recv next = .empty ↔ next = channel.tail := by
  have hlength := channel.length_eq
  have hhead : channel.head + channel.retained.length = channel.tail := by
    unfold head
    omega
  unfold recv
  constructor
  · intro hempty
    split at hempty
    · cases hempty
    · split at hempty
      · cases hempty
      · rename_i hget
        have hle := List.getElem?_eq_none_iff.mp hget
        omega
  · rintro rfl
    rw [if_neg (by omega), List.getElem?_eq_none_iff.mpr (by omega)]

end Channel

end Broadcast
