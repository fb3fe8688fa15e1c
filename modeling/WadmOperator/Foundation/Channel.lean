import Mathlib.Tactic.SplitIfs

/-!
# A queue with one receiver

An unbounded channel: sending fails only once the receiver is gone. `Pending`
answers what a condition of the receiver's world will be after the queue is
drained, when some elements establish it and others end it.
-/

structure Channel (α : Type) where
  queue : List α := []
  closed : Bool := false

namespace Channel

variable {α : Type}

def send (ch : Channel α) (x : α) : Option (Channel α) :=
  if ch.closed then none else some { ch with queue := ch.queue ++ [x] }

theorem send_eq {ch ch' : Channel α} {x : α} (h : ch.send x = some ch') :
    ch'.queue = ch.queue ++ [x] ∧ ch.closed = false ∧ ch'.closed = false := by
  unfold send at h
  split_ifs at h with hc
  obtain rfl := Option.some.inj h
  have hopen : ch.closed = false := by simpa using hc
  exact ⟨rfl, hopen, hopen⟩

def recv (ch : Channel α) : Option (α × Channel α) :=
  match ch.queue with
  | [] => none
  | x :: rest => some (x, { ch with queue := rest })

theorem recv_eq {ch ch' : Channel α} {x : α} (h : ch.recv = some (x, ch')) :
    ch.queue = x :: ch'.queue ∧ ch'.closed = ch.closed := by
  unfold recv at h
  split at h
  · cases h
  · next hq =>
    obtain ⟨rfl, rfl⟩ := Prod.mk.inj (Option.some.inj h)
    exact ⟨hq, rfl⟩

section

variable {sets clears : α → Prop}

/-- Whether the condition holds after the elements were handled in order: an element
that sets it makes it hold, one that clears it ends it. -/
def Pending (sets clears : α → Prop) (now : Prop) : List α → Prop
  | [] => now
  | x :: rest => Pending sets clears (sets x ∨ now ∧ ¬clears x) rest

theorem Pending.mono {now now' : Prop} {xs : List α} (h : Pending sets clears now xs)
    (himp : now → now') : Pending sets clears now' xs := by
  induction xs generalizing now now' with
  | nil => exact himp h
  | cons x rest ih => exact ih h fun hx => hx.imp_right fun hn => ⟨himp hn.1, hn.2⟩

theorem pending_congr {now now' : Prop} {xs : List α} (h : now ↔ now') :
    Pending sets clears now xs ↔ Pending sets clears now' xs :=
  ⟨fun hp => hp.mono h.mp, fun hp => hp.mono h.mpr⟩

theorem pending_append {now : Prop} {xs : List α} {x : α} :
    Pending sets clears now (xs ++ [x]) ↔
      sets x ∨ Pending sets clears now xs ∧ ¬clears x := by
  induction xs generalizing now with
  | nil => exact Iff.rfl
  | cons y rest ih => exact ih

end

end Channel
