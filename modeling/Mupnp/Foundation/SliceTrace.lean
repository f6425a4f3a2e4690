import Mathlib.Algebra.Group.Int.Defs
import Mathlib.Tactic.Common

/-!
# Parts of arrays that a program asks for

A program that cuts an array by computed offsets and lengths asks for slices of it, and a wrong
offset or length asks for something that is not there. A `Traced` computation keeps the slices it
has asked for beside its result; offsets and lengths are integers, so that a difference that is
negative is seen. `Meets` says that all of them lie within their arrays and that the result is as
wanted, with one rule for each way in which computations are put together.
-/

set_option autoImplicit false
set_option relaxedAutoImplicit false

namespace Mupnp.Foundation

variable {α : Type}

/-- A part of an array, by its offset and its length. -/
structure Slice (α : Type) where
  source : List α
  offset : ℤ
  length : ℤ
  deriving DecidableEq

namespace Slice

/-- The slice lies within its array. -/
def InBounds (slice : Slice α) : Prop :=
  0 ≤ slice.offset ∧ 0 ≤ slice.length ∧ slice.offset + slice.length ≤ slice.source.length

/-- The elements of a slice that lies within its array. -/
def content (slice : Slice α) : List α :=
  (slice.source.drop slice.offset.toNat).take slice.length.toNat

theorem content_append (front middle back : List α) {offset length : ℤ}
    (hoffset : offset = front.length) (hlength : length = middle.length) :
    content ⟨front ++ (middle ++ back), offset, length⟩ = middle := by
  rw [content, hoffset, hlength, Int.toNat_natCast, Int.toNat_natCast, List.drop_left,
    List.take_left]

theorem inBounds_append (front middle back : List α) {offset length : ℤ}
    (hoffset : offset = front.length) (hlength : length = middle.length) :
    InBounds ⟨front ++ (middle ++ back), offset, length⟩ := by
  simp only [InBounds, List.length_append]
  omega

end Slice

/-- A result with the slices that were asked for. -/
structure Traced (α : Type) (β : Type) where
  result : β
  slices : List (Slice α)

namespace Traced

instance : Monad (Traced α) where
  pure result := ⟨result, []⟩
  bind first next := ⟨(next first.result).result, first.slices ++ (next first.result).slices⟩

/-- Asks for a slice. -/
def read (source : List α) (offset length : ℤ) : Traced α (List α) :=
  ⟨Slice.content ⟨source, offset, length⟩, [⟨source, offset, length⟩]⟩

variable {β γ : Type}

/-- All slices lie within their arrays, and the result is as wanted. -/
def Meets (traced : Traced α β) (post : β → Prop) : Prop :=
  (∀ slice ∈ traced.slices, slice.InBounds) ∧ post traced.result

variable {post : β → Prop} {traced other : Traced α β}

theorem meets_pure {result : β} (h : post result) : (pure result : Traced α β).Meets post :=
  ⟨fun _ hslice ↦ absurd hslice List.not_mem_nil, h⟩

theorem Meets.bind {mid : β → Prop} {last : γ → Prop} {next : β → Traced α γ}
    (h : traced.Meets mid) (hnext : ∀ result, mid result → (next result).Meets last) :
    (traced >>= next).Meets last := by
  obtain ⟨hslices, hresult⟩ := hnext traced.result h.2
  refine ⟨fun slice hslice ↦ ?_, hresult⟩
  rcases List.mem_append.mp hslice with hfirst | hsecond
  · exact h.1 slice hfirst
  · exact hslices slice hsecond

theorem Meets.mono {weaker : β → Prop} (h : traced.Meets post)
    (hweaker : ∀ result, post result → weaker result) : traced.Meets weaker :=
  ⟨h.1, hweaker traced.result h.2⟩

theorem meets_ite {c : Prop} [Decidable c] (hpos : c → traced.Meets post)
    (hneg : ¬ c → other.Meets post) : (if c then traced else other).Meets post := by
  split_ifs with hc
  · exact hpos hc
  · exact hneg hc

/-- A slice that is asked for in the middle of an array. -/
theorem meets_read (front middle back : List α) {source : List α} {offset length : ℤ}
    (hsource : source = front ++ (middle ++ back)) (hoffset : offset = front.length)
    (hlength : length = middle.length) :
    (read source offset length).Meets fun result ↦ result = middle := by
  subst hsource
  refine ⟨fun slice hslice ↦ ?_, Slice.content_append front middle back hoffset hlength⟩
  rw [List.mem_singleton.mp hslice]
  exact Slice.inBounds_append front middle back hoffset hlength

end Traced

end Mupnp.Foundation
