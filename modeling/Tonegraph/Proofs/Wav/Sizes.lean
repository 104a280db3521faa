import Tonegraph.Proofs.Wav
/-!
# What the header of a file says of its size

The sizes in a header are words of 32 bits. What leads to them is the count of the frames, its
product with the bytes of a frame, the sum with the bytes of the header, and the product of the
rate. The products and the sum are checked: one that is beyond 32 bits breaks the program off, with
no file and no error. The count is not checked. It is cut to 32 bits, so with `2 ^ 32` frames or
more there can be a file, and its header gives the sizes of a shorter one.

`Wav.header_of_encode` gives all outcomes of writing, and says when a header tells the truth.
-/

set_option autoImplicit false

namespace Tonegraph

theorem Overflow.check_of_le {overflow : Overflow} {result : Nat} (beyond : 2 ^ 32 ≤ result) :
    overflow.check result = .error overflow :=
  if_neg (Nat.not_lt.mpr beyond)

namespace Wav

namespace Header

variable {rate : UInt32} {count : Nat}

/-- The steps of computing a header are taken in turn, and the first one that is beyond 32 bits
breaks off: the size of the frames, the size of the file, the bytes of a second. -/
theorem ofFrames_of_not_fits (beyond : ¬Fits rate (count % 2 ^ 32)) :
    ofFrames rate count = .error
      (if 4 * (count % 2 ^ 32) < 2 ^ 32 ∧ 2 ^ 32 ≤ 36 + 4 * (count % 2 ^ 32) then .sum
        else .product) := by
  have kept : (UInt32.ofNat count).toNat = count % 2 ^ 32 := UInt32.toNat_ofNat'
  rw [ofFrames, kept]
  by_cases long : 2 ^ 32 ≤ 4 * (count % 2 ^ 32)
  · rw [Overflow.check_of_le (by omega), if_neg (by omega)]
    rfl
  · have data : Overflow.product.check (count % 2 ^ 32 * 4) = .ok (.ofNat (4 * (count % 2 ^ 32))) :=
      Overflow.check_eq_ok_iff.mpr (by
        rw [UInt32.toNat_ofNat_of_lt' (show _ < 2 ^ 32 by omega), Nat.mul_comm])
    have dataSize : (UInt32.ofNat (4 * (count % 2 ^ 32))).toNat = 4 * (count % 2 ^ 32) :=
      UInt32.toNat_ofNat_of_lt' (show _ < 2 ^ 32 by omega)
    rw [data]
    show (Overflow.sum.check (36 + (UInt32.ofNat _).toNat) >>= _) = _
    rw [dataSize]
    by_cases longer : 2 ^ 32 ≤ 36 + 4 * (count % 2 ^ 32)
    · rw [Overflow.check_of_le longer, if_pos ⟨by omega, longer⟩]
      rfl
    · have fast : 2 ^ 32 ≤ rate.toNat * 4 := by
        by_contra slow
        exact beyond ⟨by omega, by omega⟩
      have file : Overflow.sum.check (36 + 4 * (count % 2 ^ 32)) =
          .ok (.ofNat (36 + 4 * (count % 2 ^ 32))) :=
        Overflow.check_eq_ok_iff.mpr (UInt32.toNat_ofNat_of_lt' (Nat.not_le.mp longer))
      rw [file, if_neg (by omega)]
      show (Overflow.product.check (rate.toNat * 4) >>= _) = _
      rw [Overflow.check_of_le fast]
      rfl

/-- Of the sizes for what 32 bits keep of the count only those of the frames themselves are true. -/
theorem Truthful.truthful_iff {h : Header} (kept : h.Truthful rate (count % 2 ^ 32)) :
    h.Truthful rate count ↔ count < 2 ^ 32 := by
  constructor
  · intro truthful
    have short := truthful.fits.short
    omega
  · intro small
    rwa [Nat.mod_eq_of_lt small] at kept

end Header

/-! ## Written files -/

variable {S : Type} [Scalar S]

/-- **What the header of a file says.** A file is written exactly if the sizes of it and of a second
of it fit into 32 bits, counting only what 32 bits keep of the count of the frames. It always has
four bytes for each frame behind the 44 of its header. The header gives the sizes for what is kept of
the count, so it tells the truth of all frames exactly if there are fewer than `2 ^ 32` of them.

Else the program breaks off, in the sum if just the size of the file is beyond 32 bits.

All in all there is a file with a true header exactly if the sizes of it and of a second fit. -/
theorem header_of_encode (rate : UInt32) (frames : List (Frame S)) :
    let kept := frames.length % 2 ^ 32
    (match encode rate frames with
      | .ok file => Header.Fits rate kept ∧ file.length = 44 + 4 * frames.length ∧
          ∃ header, Header.decode? file = some header ∧ header.Truthful rate kept ∧
            (header.Truthful rate frames.length ↔ frames.length < 2 ^ 32)
      | .error overflow => ¬Header.Fits rate kept ∧
          (overflow = .sum ↔ 4 * kept < 2 ^ 32 ∧ 2 ^ 32 ≤ 36 + 4 * kept)) ∧
    ((∃ file header, encode rate frames = .ok file ∧ Header.decode? file = some header ∧
        header.Truthful rate frames.length) ↔ Header.Fits rate frames.length) := by
  intro kept
  by_cases fits : Header.Fits rate kept
  · obtain ⟨header, made⟩ := Header.exists_ofFrames fits
    have written : encode rate frames = .ok (header.encode ++ frames.flatMap frameBytes) :=
      encode_eq_ok_iff.mpr ⟨header, made, rfl⟩
    have ofKept : header.Truthful rate kept := (Header.ofFrames_eq_ok_iff.mp made).1
    have read : Header.decode? (header.encode ++ frames.flatMap frameBytes) = some header :=
      Header.decode?_encode header _
    rw [written]
    refine ⟨⟨fits, length_append_frames header frames, header, read, ofKept,
      ofKept.truthful_iff⟩, ?_⟩
    constructor
    · rintro ⟨_, _, -, -, truthful⟩
      exact truthful.fits
    · intro all
      have short := all.short
      exact ⟨_, header, rfl, read, ofKept.truthful_iff.mpr (by omega)⟩
  · have breaks : encode rate frames = .error
        (if 4 * kept < 2 ^ 32 ∧ 2 ^ 32 ≤ 36 + 4 * kept then .sum else .product) := by
      rw [encode, Header.ofFrames_of_not_fits fits]
      rfl
    rw [breaks]
    refine ⟨⟨fits, by split <;> simp_all⟩, ?_⟩
    constructor
    · rintro ⟨_, _, written, -⟩
      cases written
    · intro all
      have short := all.short
      have same : kept = frames.length := Nat.mod_eq_of_lt (by omega)
      exact absurd (same ▸ all) fits

/-- Without frames at a rate of `2 ^ 30` the program breaks off, with `2 ^ 30 - 1` frames as well.
With `2 ^ 32` frames a file is written, and its header is that of a file without frames. -/
theorem header_of_encode_fails :
    encode 1073741824 ([] : List (Frame ℚ)) = .error .product ∧
    encode 44100 (List.replicate (2 ^ 30 - 1) (⟨0, 0⟩ : Frame ℚ)) = .error .sum ∧
    ∃ file header, encode 44100 (List.replicate (2 ^ 32) (⟨0, 0⟩ : Frame ℚ)) = .ok file ∧
      Header.decode? file = some header ∧ header.dataSize = 0 ∧ header.fileSize = 36 ∧
      ¬header.Truthful 44100 (2 ^ 32) := by
  have many (count : Nat) : (List.replicate count (⟨0, 0⟩ : Frame ℚ)).length = count :=
    List.length_replicate
  refine ⟨rfl, ?_, ?_⟩
  · rw [encode, many]
    rfl
  · have cut : Header.ofFrames 44100 (2 ^ 32) =
        .ok ⟨36, 16, 1, 2, 44100, 176400, 4, 16, 0⟩ := rfl
    have written := encode_eq_ok_iff.mpr ⟨_, (congrArg _ (many (2 ^ 32))).trans cut, rfl⟩
    refine ⟨_, _, written, Header.decode?_encode _ _, rfl, rfl, fun truthful => ?_⟩
    exact absurd truthful.fits.short (by decide)

end Wav

end Tonegraph
