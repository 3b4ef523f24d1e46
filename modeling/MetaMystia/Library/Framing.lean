import Mathlib.Data.List.Basic

/-! # Incremental decoding

A decoder looks at a buffer and asks for more, takes one item off its front or
fails. If what it takes or rejects does not depend on what follows, decoding a
stream gives the same items however the stream is cut into chunks.
-/

namespace MetaMystia.Framing

universe u v w

structure Decoder (β : Type u) (α : Type v) (ε : Type w) where
  decode : List β → Except ε (Option (α × List β))
  consumes : ∀ {buffer item rest}, decode buffer = .ok (some (item, rest)) →
    rest.length < buffer.length
  item_append : ∀ {buffer item rest}, decode buffer = .ok (some (item, rest)) →
    ∀ more, decode (buffer ++ more) = .ok (some (item, rest ++ more))
  error_append : ∀ {buffer e}, decode buffer = .error e → ∀ more, decode (buffer ++ more) = .error e

variable {β : Type u} {α : Type v} {ε : Type w} (d : Decoder β α ε)

/-- The items of a stream so far, and the bytes that are left or the error that ended it. -/
structure Stream (β : Type u) (α : Type v) (ε : Type w) where
  items : List α
  tail : Except ε (List β)

/-- Decode until the decoder asks for more. -/
def drain (buffer : List β) : Stream β α ε :=
  match h : d.decode buffer with
  | .error e => ⟨[], .error e⟩
  | .ok none => ⟨[], .ok buffer⟩
  | .ok (some (item, rest)) =>
    have := d.consumes h
    let more := drain rest
    ⟨item :: more.items, more.tail⟩
termination_by buffer.length

/-- A chunk arrives; after an error nothing is decoded any more. -/
def feed (s : Stream β α ε) (chunk : List β) : Stream β α ε :=
  match s.tail with
  | .error _ => s
  | .ok buffer =>
    let more := drain d (buffer ++ chunk)
    ⟨s.items ++ more.items, more.tail⟩

def feedAll (chunks : List (List β)) : Stream β α ε := chunks.foldl (feed d) ⟨[], .ok []⟩

variable {d}

theorem drain_of_error {buffer : List β} {e : ε} (h : d.decode buffer = .error e) :
    drain d buffer = ⟨[], .error e⟩ := by
  rw [drain]
  split <;> simp_all

theorem drain_of_none {buffer : List β} (h : d.decode buffer = .ok none) :
    drain d buffer = ⟨[], .ok buffer⟩ := by
  rw [drain]
  split <;> simp_all

theorem drain_of_some {buffer rest : List β} {item : α}
    (h : d.decode buffer = .ok (some (item, rest))) :
    drain d buffer = ⟨item :: (drain d rest).items, (drain d rest).tail⟩ := by
  rw [drain]
  split <;> simp_all

/-- Every stream is drained in one of three ways. -/
theorem drain_induction {P : List β → Prop}
    (herror : ∀ buffer e, d.decode buffer = .error e → P buffer)
    (hnone : ∀ buffer, d.decode buffer = .ok none → P buffer)
    (hsome : ∀ buffer item rest, d.decode buffer = .ok (some (item, rest)) → P rest → P buffer)
    (buffer : List β) : P buffer := by
  induction hlength : buffer.length using Nat.strongRecOn generalizing buffer with
  | ind n ih =>
    cases h : d.decode buffer with
    | error e => exact herror buffer e h
    | ok result =>
      match result with
      | none => exact hnone buffer h
      | some (item, rest) =>
        exact hsome buffer item rest h (ih rest.length (hlength ▸ d.consumes h) rest rfl)

theorem forall_mem_drain {P : α → Prop}
    (h : ∀ buffer item rest, d.decode buffer = .ok (some (item, rest)) → P item) (buffer : List β) :
    ∀ item ∈ (drain d buffer).items, P item := by
  induction buffer using drain_induction (d := d) with
  | herror buffer e herror =>
    rw [drain_of_error herror]
    exact nofun
  | hnone buffer hnone =>
    rw [drain_of_none hnone]
    exact nofun
  | hsome buffer item rest hsome ih =>
    rw [drain_of_some hsome]
    exact List.forall_mem_cons.mpr ⟨h buffer item rest hsome, ih⟩

theorem drain_append (buffer more : List β) :
    drain d (buffer ++ more) = feed d (drain d buffer) more := by
  induction buffer using drain_induction (d := d) with
  | herror buffer e h => rw [drain_of_error h, drain_of_error (d.error_append h more), feed]
  | hnone buffer h =>
    rw [drain_of_none h, feed]
    rfl
  | hsome buffer item rest h ih =>
    rw [drain_of_some h, drain_of_some (d.item_append h more), ih]
    unfold feed
    cases htail : (drain d rest).tail with
    | error e => simp only [htail]
    | ok left => simp only [List.cons_append]

theorem feed_foldl_eq_drain (buffer : List β) (chunks : List (List β)) :
    chunks.foldl (feed d) (drain d buffer) = drain d (buffer ++ chunks.flatten) := by
  induction chunks generalizing buffer with
  | nil => rw [List.flatten_nil, List.append_nil, List.foldl_nil]
  | cons chunk rest ih =>
    rw [List.foldl_cons, ← drain_append, ih, List.flatten_cons, List.append_assoc]

theorem feedAll_eq_drain (hempty : d.decode [] = .ok none) (chunks : List (List β)) :
    feedAll d chunks = drain d chunks.flatten := by
  have h := feed_foldl_eq_drain (d := d) [] chunks
  rw [drain_of_none hempty, List.nil_append] at h
  exact h

end MetaMystia.Framing
