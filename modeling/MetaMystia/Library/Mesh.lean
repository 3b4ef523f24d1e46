import Mathlib.Data.List.Basic
import Mathlib.Logic.Function.Basic

/-! # A full mesh of FIFO channels

`channels src dst` lists the messages from `src` that `dst` has not taken yet,
oldest first. Messages are appended at the back and taken from the front.
-/

namespace MetaMystia.Mesh

universe u v

variable {ι : Type u} {M : Type v}

abbrev Channels (ι : Type u) (M : Type v) := ι → ι → List M

/-- Each channel is as before, or the channel of `src` to another party with one more message. -/
def Extends (channels channels' : Channels ι M) (src : ι) (msg : M) : Prop :=
  ∀ i j, channels' i j = channels i j ∨ (i = src ∧ j ≠ src ∧ channels' i j = channels i j ++ [msg])

theorem Extends.mem {channels channels' : Channels ι M} {src i j : ι} {msg m : M}
    (h : Extends channels channels' src msg) (hm : m ∈ channels' i j) :
    m ∈ channels i j ∨ (i = src ∧ j ≠ src ∧ m = msg) := by
  cases h i j with
  | inl heq => exact .inl (heq ▸ hm)
  | inr hnew =>
    obtain ⟨hi, hj, heq⟩ := hnew
    rw [heq, List.mem_append, List.mem_singleton] at hm
    exact hm.imp_right fun hmsg => ⟨hi, hj, hmsg⟩

theorem Extends.subset {channels channels' : Channels ι M} {src i j : ι} {msg m : M}
    (h : Extends channels channels' src msg) (hm : m ∈ channels i j) : m ∈ channels' i j := by
  cases h i j with
  | inl heq => exact heq ▸ hm
  | inr hnew => exact hnew.2.2 ▸ List.mem_append_left _ hm

variable [DecidableEq ι]

def post (channels : Channels ι M) (src dst : ι) (msg : M) : Channels ι M := fun i j =>
  if i = src ∧ j = dst then channels i j ++ [msg] else channels i j

def postAll (channels : Channels ι M) (src : ι) (msg : M) : Channels ι M := fun i j =>
  if i = src ∧ j ≠ src then channels i j ++ [msg] else channels i j

def take (channels : Channels ι M) (src dst : ι) : Channels ι M := fun i j =>
  if i = src ∧ j = dst then (channels i j).tail else channels i j

theorem extends_post {channels : Channels ι M} {src dst : ι} {msg : M} (hne : dst ≠ src) :
    Extends channels (post channels src dst msg) src msg := by
  intro i j
  unfold post
  split_ifs with h
  · exact .inr ⟨h.1, h.2 ▸ hne, rfl⟩
  · exact .inl rfl

theorem extends_postAll {channels : Channels ι M} {src : ι} {msg : M} :
    Extends channels (postAll channels src msg) src msg := by
  intro i j
  unfold postAll
  split_ifs with h
  · exact .inr ⟨h.1, h.2, rfl⟩
  · exact .inl rfl

theorem mem_postAll {channels : Channels ι M} {src i j : ι} {msg m : M} :
    m ∈ postAll channels src msg i j ↔ m ∈ channels i j ∨ (i = src ∧ j ≠ src ∧ m = msg) := by
  unfold postAll
  split_ifs with h
  · simp [h]
  · constructor
    · exact .inl
    · rintro (hm | ⟨hi, hj, _⟩)
      · exact hm
      · exact absurd ⟨hi, hj⟩ h

theorem take_sublist (channels : Channels ι M) (src dst i j : ι) :
    (take channels src dst i j).Sublist (channels i j) := by
  unfold take
  split_ifs
  · exact List.tail_sublist _
  · exact List.Sublist.refl _

theorem mem_of_mem_take {channels : Channels ι M} {src dst i j : ι} {m : M}
    (h : m ∈ take channels src dst i j) : m ∈ channels i j :=
  (take_sublist ..).subset h

theorem mem_take_or {channels : Channels ι M} {src dst i j : ι} {msg m : M} {rest : List M}
    (hhead : channels src dst = msg :: rest) (h : m ∈ channels i j) :
    m ∈ take channels src dst i j ∨ (i = src ∧ j = dst ∧ m = msg) := by
  unfold take
  split_ifs with hij
  · obtain ⟨rfl, rfl⟩ := hij
    rw [hhead] at h ⊢
    cases List.mem_cons.mp h with
    | inl hm => exact .inr ⟨rfl, rfl, hm⟩
    | inr hm => exact .inl hm
  · exact .inl h

end MetaMystia.Mesh
