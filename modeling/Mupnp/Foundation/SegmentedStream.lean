import Mathlib.Data.List.Basic
import Mathlib.Tactic.Common

/-!
# Streams that arrive in segments

A reader of a byte stream is given what has arrived: at least one element while something is left,
and at most as many as it asks for, but never more than the front segment holds. Where the stream is
cut does not matter to a reader that takes its elements one by one (`receive_one`) or that goes on
until it has as many as it wants: each call returns a beginning of what is left
(`content_receive`), and a nonempty one (`receive_ne_nil`).
-/

set_option autoImplicit false
set_option relaxedAutoImplicit false

namespace Mupnp.Foundation

variable {α : Type*}

/-- A stream, cut into the segments in which it arrives. -/
structure SegmentedStream (α : Type*) where
  segments : List (List α)

namespace SegmentedStream

/-- The elements of the stream. -/
def content (stream : SegmentedStream α) : List α := stream.segments.flatten

/-- What one call returns: a beginning of the first segment that is not empty. -/
def receive (stream : SegmentedStream α) (limit : ℕ) : List α × SegmentedStream α :=
  match stream.segments.dropWhile List.isEmpty with
  | [] => ([], ⟨[]⟩)
  | segment :: later => (segment.take limit, ⟨segment.drop limit :: later⟩)

/-- Empty segments carry nothing. -/
theorem flatten_dropWhile_isEmpty (segments : List (List α)) :
    (segments.dropWhile List.isEmpty).flatten = segments.flatten := by
  induction segments with
  | nil => rfl
  | cons segment later ih =>
    cases segment with
    | nil => exact ih
    | cons c rest => rfl

/-- A call returns a beginning of what is left, and leaves the rest. -/
theorem content_receive (stream : SegmentedStream α) (limit : ℕ) :
    (stream.receive limit).1 ++ (stream.receive limit).2.content = stream.content := by
  have hflatten := flatten_dropWhile_isEmpty stream.segments
  unfold receive
  split
  next hsegments =>
    rw [hsegments] at hflatten
    exact hflatten
  next segment later hsegments =>
    rw [hsegments] at hflatten
    calc segment.take limit ++ (segment.drop limit ++ later.flatten)
        = (segment.take limit ++ segment.drop limit) ++ later.flatten := by
          rw [List.append_assoc]
      _ = stream.content := by
          rw [List.take_append_drop]
          exact hflatten

theorem length_receive_le (stream : SegmentedStream α) (limit : ℕ) :
    (stream.receive limit).1.length ≤ limit := by
  unfold receive
  split
  · exact Nat.zero_le limit
  · exact List.length_take_le limit _

/-- Something is returned while something is left. -/
theorem receive_ne_nil {stream : SegmentedStream α} (h : stream.content ≠ []) {limit : ℕ}
    (hlimit : 0 < limit) : (stream.receive limit).1 ≠ [] := by
  have hflatten := flatten_dropWhile_isEmpty stream.segments
  unfold receive
  split
  next hsegments =>
    rw [hsegments] at hflatten
    exact absurd hflatten.symm h
  next segment later hsegments =>
    have hempty : ¬ segment.isEmpty := by
      have hhead := List.head?_dropWhile_not List.isEmpty stream.segments
      rw [hsegments] at hhead
      simpa using hhead
    have hne : segment ≠ [] := by simpa using hempty
    intro htake
    rcases List.take_eq_nil_iff.mp htake with hzero | hnil
    · omega
    · exact hne hnil

/-- A call for one element returns the next one. -/
theorem receive_one {stream : SegmentedStream α} {c : α} {rest : List α}
    (h : stream.content = c :: rest) :
    (stream.receive 1).1 = [c] ∧ (stream.receive 1).2.content = rest := by
  have hcontent := content_receive stream 1
  have hlength := length_receive_le stream 1
  have hne : (stream.receive 1).1 ≠ [] := receive_ne_nil (by simp [h]) (by decide)
  obtain ⟨d, hd⟩ : ∃ d, (stream.receive 1).1 = [d] := by
    rw [← List.length_eq_one_iff]
    have hpos := List.length_pos_iff.mpr hne
    omega
  rw [hd, h, List.singleton_append] at hcontent
  obtain ⟨rfl, hrest⟩ := List.cons.inj hcontent
  exact ⟨hd, hrest⟩

/-- Nothing is returned at the end. -/
theorem receive_eq_nil {stream : SegmentedStream α} (h : stream.content = []) (limit : ℕ) :
    (stream.receive limit).1 = [] ∧ (stream.receive limit).2.content = [] := by
  have hcontent := content_receive stream limit
  rw [h] at hcontent
  exact List.append_eq_nil_iff.mp hcontent

end SegmentedStream

end Mupnp.Foundation
