import Mathlib.Data.List.Basic

/-! # Changes announced after the fact

Callers change a shared state one after the other and announce each change later,
each in its own time: the announcement of a change waits in `pending` until its
caller sends it. `about` picks the announcements of one key out of a list.
-/

namespace MetaMystia

universe u v

/-- `changes` has every change in the order in which they were made, `sent` the announcements in the
order in which they were sent. -/
structure Outbox (ε : Type u) where
  changes : List ε
  pending : List ε
  sent : List ε
deriving DecidableEq

namespace Outbox

variable {ε : Type u} {κ : Type v} [DecidableEq κ] {key : ε → κ} {k : κ}

def empty : Outbox ε := ⟨[], [], []⟩

def record (box : Outbox ε) (events : List ε) : Outbox ε :=
  { box with changes := box.changes ++ events, pending := box.pending ++ events }

def send (box : Outbox ε) (call : Nat) : Option (Outbox ε) :=
  box.pending[call]?.map fun event =>
    { box with pending := box.pending.eraseIdx call, sent := box.sent ++ [event] }

def about (key : ε → κ) (k : κ) (events : List ε) : List ε := events.filter fun event => key event = k

def lastAbout (key : ε → κ) (k : κ) (events : List ε) : Option ε := (about key k events).getLast?

@[simp] theorem about_append (front back : List ε) :
    about key k (front ++ back) = about key k front ++ about key k back := List.filter_append ..

@[simp] theorem about_nil : about key k [] = [] := rfl

theorem about_cons_of_eq {event : ε} {rest : List ε} (h : key event = k) :
    about key k (event :: rest) = event :: about key k rest := List.filter_cons_of_pos (by simpa using h)

theorem about_cons_of_ne {event : ε} {rest : List ε} (h : key event ≠ k) :
    about key k (event :: rest) = about key k rest := List.filter_cons_of_neg (by simpa using h)

theorem about_eq_nil_iff {events : List ε} : about key k events = [] ↔ ∀ event ∈ events, key event ≠ k := by
  simp [about]

theorem lastAbout_concat_of_eq {events : List ε} {event : ε} (h : key event = k) :
    lastAbout key k (events ++ [event]) = some event := by
  rw [lastAbout, about_append, about_cons_of_eq h]
  simp

theorem lastAbout_concat_of_ne {events : List ε} {event : ε} (h : key event ≠ k) :
    lastAbout key k (events ++ [event]) = lastAbout key k events := by
  rw [lastAbout, about_append, about_cons_of_ne h]
  simp [lastAbout]

theorem send_cases {box next : Outbox ε} {call : Nat} (h : box.send call = some next) :
    ∃ event front back, box.pending[call]? = some event ∧ box.pending.take call = front ∧
      box.pending = front ++ event :: back ∧ box.pending.eraseIdx call = front ++ back ∧
      next = { box with pending := front ++ back, sent := box.sent ++ [event] } := by
  obtain ⟨event, hevent, rfl⟩ := Option.map_eq_some_iff.mp h
  obtain ⟨hlt, heq⟩ := List.getElem?_eq_some_iff.mp hevent
  have herase := List.eraseIdx_eq_take_drop_succ box.pending call
  refine ⟨event, box.pending.take call, box.pending.drop (call + 1), hevent, rfl, ?_, herase, ?_⟩
  · rw [← heq, ← List.drop_eq_getElem_cons hlt, List.take_append_drop]
  · rw [herase]

/-- The announcements of a key that were sent and those still to be sent, in this order, are the
changes of the key. -/
def Ordered (key : ε → κ) (k : κ) (box : Outbox ε) : Prop :=
  about key k (box.sent ++ box.pending) = about key k box.changes

/-- The call announces the oldest change of the key that is not yet announced, or another key's. -/
def Oldest (key : ε → κ) (k : κ) (box : Outbox ε) (call : Nat) : Prop :=
  ∀ event ∈ box.pending[call]?, key event = k → ∀ earlier ∈ box.pending.take call, key earlier ≠ k

instance (box : Outbox ε) (call : Nat) : Decidable (box.Oldest key k call) :=
  inferInstanceAs (Decidable (∀ event ∈ box.pending[call]?, _ → _))

theorem ordered_empty : Ordered key k (empty : Outbox ε) := rfl

theorem Ordered.record {box : Outbox ε} (h : box.Ordered key k) (events : List ε) :
    (box.record events).Ordered key k := by
  unfold Ordered at *
  rw [Outbox.record, ← List.append_assoc, about_append, h, about_append]

theorem Ordered.send {box next : Outbox ε} {call : Nat} (h : box.Ordered key k)
    (holdest : box.Oldest key k call) (hsend : box.send call = some next) : next.Ordered key k := by
  obtain ⟨event, front, back, hevent, hfront, hpending, _, rfl⟩ := send_cases hsend
  unfold Ordered at *
  rw [← h, hpending]
  simp only [about_append]
  by_cases hkey : key event = k
  · have hnone : about key k front = [] := about_eq_nil_iff.mpr (hfront ▸ holdest event hevent hkey)
    simp [hnone, about_cons_of_eq hkey]
  · simp [about_cons_of_ne hkey]

end Outbox

end MetaMystia
