import Mathlib.Data.List.DropRight
import Mathlib.Data.Nat.Bitwise
import ObcSdk.Boot.Pack
/-!
# The card flasher

`flash_tf_signed.sh`, which writes packages to a card on the host. Of a
package it looks at the header's fields, read with `od`, and at the
lengths; what `dd` then writes is the file, or the file without its
header.
-/

namespace ObcSdk

namespace Tools

open Boot

/-- What `od -j offset -N n` prints, a number a byte. -/
def od (file : List UInt8) (offset n : ℕ) : List ℕ := ((file.drop offset).take n).map (·.toNat)

/-- `read_le_u32`, `none` for a failure. -/
def readLeU32 (file : List UInt8) (offset : ℕ) : Option ℕ :=
  match od file offset 4 with
  | [b₀, b₁, b₂, b₃] => some (b₀ ||| (b₁ <<< 8) ||| (b₂ <<< 16) ||| (b₃ <<< 24))
  | _ => none

/-- `read_le_u16`. -/
def readLeU16 (file : List UInt8) (offset : ℕ) : Option ℕ :=
  match od file offset 2 with
  | [b₀, b₁] => some (b₀ ||| (b₁ <<< 8))
  | _ => none

/-- What the shell makes of a command's output: it is without NULs and
without the newlines it ends in. -/
def commandOutput (bs : List UInt8) : List UInt8 := (bs.filter (· ≠ 0)).rdropWhile (· = 0x0A)

/-- `validate_image`: `VALIDATED_WRITE_SIZE`, or `none` where the script
ends. -/
def validateImage (imageFile : Option (List UInt8)) (expectedHeadWrite : ℕ) (partitionSize : ℤ) :
    Option ℕ :=
  match imageFile with
  | none => none
  | some file =>
    let totalSize := file.length
    if totalSize ≤ obcHeaderSize then none else
    if commandOutput (file.take 5) ≠ obcMagic then none else
    match readLeU32 file 6, readLeU16 file 12 with
    | some payloadSize, some headWrite =>
      if totalSize ≠ obcHeaderSize + payloadSize then none else
      if headWrite ≠ expectedHeadWrite then none else
      let validatedWriteSize := if expectedHeadWrite = 0 then payloadSize else totalSize
      if partitionSize < validatedWriteSize then none else some validatedWriteSize
    | _, _ => none

/-- What the `dd` of `write_one` copies: with `skip` the file from there
on. -/
def ddBytes (file : List UInt8) (expectedHeadWrite : ℕ) : List UInt8 :=
  if expectedHeadWrite = 0 then file.drop obcHeaderSize else file

/-- `write_one`: the bytes that go to the card. -/
def writeOne (imageFile : Option (List UInt8)) (expectedHeadWrite : ℕ) (partitionSize : ℤ) :
    Option (List UInt8) :=
  match validateImage imageFile expectedHeadWrite partitionSize, imageFile with
  | some _, some file => some (ddBytes file expectedHeadWrite)
  | _, _ => none

section Validate

variable {file bs : List UInt8} {offset n h v : ℕ} {z : ℤ}

/-- Bytes put together as the shell does are their little-endian number. -/
theorem readLeU32_eq_some (hr : readLeU32 file offset = some n) :
    n = leNat ((file.drop offset).take 4) := by
  unfold readLeU32 od at hr
  generalize (file.drop offset).take 4 = bs at hr
  match bs with
  | [] | [_] | [_, _] | [_, _, _] | _ :: _ :: _ :: _ :: _ :: _ => simp at hr
  | [b₀, b₁, b₂, b₃] =>
    simp only [List.map_cons, List.map_nil, Option.some.injEq] at hr
    have h₀ := b₀.toNat_lt
    have h₁ := b₁.toNat_lt
    have h₂ := b₂.toNat_lt
    have e₁ := Nat.shiftLeft_add_eq_or_of_lt (i := 8) h₀ b₁.toNat
    have e₂ := Nat.shiftLeft_add_eq_or_of_lt (b := b₁.toNat <<< 8 + b₀.toNat) (i := 16) (by omega)
      b₂.toNat
    have e₃ := Nat.shiftLeft_add_eq_or_of_lt (i := 24)
      (b := b₂.toNat <<< 16 + (b₁.toNat <<< 8 + b₀.toNat)) (by omega) b₃.toNat
    rw [← hr, Nat.or_comm _ (b₃.toNat <<< 24), Nat.or_comm _ (b₂.toNat <<< 16),
      Nat.or_comm _ (b₁.toNat <<< 8), ← e₁, ← e₂, ← e₃]
    simp only [leNat]
    omega

theorem readLeU16_eq_some (hr : readLeU16 file offset = some n) :
    n = leNat ((file.drop offset).take 2) := by
  unfold readLeU16 od at hr
  generalize (file.drop offset).take 2 = bs at hr
  match bs with
  | [] | [_] | _ :: _ :: _ :: _ => simp at hr
  | [b₀, b₁] =>
    simp only [List.map_cons, List.map_nil, Option.some.injEq] at hr
    have e₁ := Nat.shiftLeft_add_eq_or_of_lt (i := 8) b₀.toNat_lt b₁.toNat
    rw [← hr, Nat.or_comm, ← e₁]
    simp only [leNat]
    omega

/-- The shell adds nothing to a command's output, so one of the magic's
length is the magic. -/
theorem eq_of_commandOutput_eq (hlen : bs.length ≤ obcMagic.length)
    (ho : commandOutput bs = obcMagic) : bs = obcMagic := by
  have hsub : (commandOutput bs).Sublist bs :=
    (List.rdropWhile_prefix _ _).sublist.trans List.filter_sublist
  have heq := hsub.eq_of_length_le (by rwa [ho])
  rw [← heq, ho]

/-- **What the flasher makes sure of.** -/
theorem validateImage_eq_some (hv : validateImage (some file) h z = some v) :
    obcHeaderSize < file.length ∧ file.take 5 = obcMagic ∧
      file.length = obcHeaderSize + leNat ((file.drop 6).take 4) ∧
      leNat ((file.drop 12).take 2) = h ∧
      v = if h = 0 then leNat ((file.drop 6).take 4) else file.length := by
  simp only [validateImage] at hv
  -- the checks in their order, each of them passed
  split at hv
  · cases hv
  rename_i hlong
  split at hv
  · cases hv
  rename_i hmagic
  split at hv
  swap
  · cases hv
  rename_i payloadSize headWrite hpayload hhead
  split at hv
  · cases hv
  rename_i hsize
  split at hv
  · cases hv
  rename_i hflag
  obtain ⟨-, hv⟩ := Option.ite_none_left_eq_some.1 hv
  rw [not_not] at hmagic hsize hflag
  have htake : (file.take 5).length ≤ obcMagic.length := by
    rw [List.length_take]
    exact min_le_left _ _
  obtain rfl := readLeU32_eq_some hpayload
  obtain rfl := readLeU16_eq_some hhead
  exact ⟨Nat.lt_of_not_le hlong, eq_of_commandOutput_eq htake hmagic, hsize, hflag,
    (Option.some.inj hv).symm⟩

end Validate

end Tools

end ObcSdk
