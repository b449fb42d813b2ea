import ViCell.Lib.Bytes

/-!
# Placing a guest's boot images

`place_images` with the guest memory writes of its caller. The kernel keeps
every write inside guest RAM; nothing keeps the three images apart.
-/

namespace ViCell.Hypervisor

open Lib.Bytes

def guestIpaBase : Nat := 0x40000000

def guestRamSize : Nat := 128 * 1024 * 1024

/-- `parse_image_header`: the text offset and the image size. -/
def parseImageHeader (kernel : List (BitVec 8)) : Option (Nat × Nat) :=
  if kernel.length < 0x40 then none
  else if decodeLE ((kernel.drop 0x38).take 4) ≠ 0x644D5241 then none
  else some (decodeLE ((kernel.drop 0x08).take 8), decodeLE ((kernel.drop 0x10).take 8))

structure GuestRange where
  gpa : Nat
  len : Nat
  deriving DecidableEq

namespace GuestRange

def addresses (range : GuestRange) : Set Nat := Set.Ico range.gpa (range.gpa + range.len)

/-- Whether `write_guest_memory` takes the range: the syscall arm refuses a range that
wraps and a buffer above `MAX_USER_BUF`, the registry one that leaves guest RAM. -/
def Accepted (range : GuestRange) : Prop :=
  range.gpa + range.len < 2 ^ 64 ∧ range.len ≤ 64 * 1024 * 1024 ∧
    guestIpaBase ≤ range.gpa ∧ range.gpa - guestIpaBase + range.len ≤ guestRamSize

instance (range : GuestRange) : Decidable range.Accepted :=
  inferInstanceAs (Decidable (_ ∧ _))

end GuestRange

structure LoadedGuest where
  kernelEntryGpa : Nat
  initrdGpa : Nat
  initrdSize : Nat
  dtbGpa : Nat

/-- `(value + MB2 - 1) & !(MB2 - 1)`, where the sum wraps in a release build. -/
def roundUpMb2 (value : Nat) : Nat :=
  let mb2 := 2 * 1024 * 1024
  (value + mb2 - 1) % 2 ^ 64 / mb2 * mb2

def initrdOffset (textOffset imageSize : Nat) : Nat :=
  (roundUpMb2 textOffset + roundUpMb2 imageSize) % 2 ^ 64

/-- `place_images` at `GUEST_IPA_BASE`: the ranges written, and the result unless a
write was refused. -/
def placeImages (kernel initrd dtb : List (BitVec 8)) : List GuestRange × Option LoadedGuest :=
  match parseImageHeader kernel with
  | none => ([], none)
  | some (textOffset, imageSize) =>
    let kernelGpa := (guestIpaBase + roundUpMb2 textOffset) % 2 ^ 64
    let dtbGpa := guestIpaBase
    let initrdGpa := (guestIpaBase + initrdOffset textOffset imageSize) % 2 ^ 64
    let dtbRange : GuestRange := ⟨dtbGpa, dtb.length⟩
    let kernelRange : GuestRange := ⟨kernelGpa, kernel.length⟩
    let initrdRange : GuestRange := ⟨initrdGpa, initrd.length⟩
    if dtbRange.Accepted then
      if kernelRange.Accepted then
        if initrdRange.Accepted then
          ([dtbRange, kernelRange, initrdRange], some ⟨kernelGpa, initrdGpa, initrd.length, dtbGpa⟩)
        else ([dtbRange, kernelRange], none)
      else ([dtbRange], none)
    else ([], none)

def InRam (offset len : Nat) : Prop := len ≤ 64 * 1024 * 1024 ∧ offset + len ≤ guestRamSize

instance (offset len : Nat) : Decidable (InRam offset len) :=
  inferInstanceAs (Decidable (_ ∧ _))

/-- Where the header puts the images, those that are written do not meet. -/
def KeptApart (textOffset imageSize kernelLen initrdLen dtbLen : Nat) : Prop :=
  let kernelAt := roundUpMb2 textOffset
  let initrdAt := initrdOffset textOffset imageSize
  InRam 0 dtbLen → InRam kernelAt kernelLen → dtbLen ≤ kernelAt ∧
    (InRam initrdAt initrdLen → initrdLen = 0 ∨ dtbLen ≤ initrdAt ∧
      (kernelAt + kernelLen ≤ initrdAt ∨ initrdAt + initrdLen ≤ kernelAt))

/-- An offset that wraps the address leaves guest RAM below its base. -/
theorem accepted_iff (offset len : Nat) (fits : offset < 2 ^ 64) :
    GuestRange.Accepted ⟨(guestIpaBase + offset) % 2 ^ 64, len⟩ ↔ InRam offset len := by
  simp only [GuestRange.Accepted, InRam, guestIpaBase, guestRamSize]
  omega

theorem in_ram_gpa {offset len : Nat} (fits : InRam offset len) :
    (guestIpaBase + offset) % 2 ^ 64 = guestIpaBase + offset := by
  simp only [InRam, guestIpaBase, guestRamSize] at *
  omega

theorem round_up_lt (value : Nat) : roundUpMb2 value < 2 ^ 64 := by
  simp only [roundUpMb2]
  omega

theorem ranges_apart_iff (left leftLen right rightLen : Nat) :
    Disjoint (GuestRange.addresses ⟨guestIpaBase + left, leftLen⟩)
        (GuestRange.addresses ⟨guestIpaBase + right, rightLen⟩) ↔
      leftLen = 0 ∨ rightLen = 0 ∨ left + leftLen ≤ right ∨ right + rightLen ≤ left := by
  simp only [GuestRange.addresses, Set.Ico_disjoint_Ico, le_max_iff]
  omega

theorem written_inside (kernel initrd dtb : List (BitVec 8)) :
    ∀ range ∈ (placeImages kernel initrd dtb).1,
      range.addresses ⊆ Set.Ico guestIpaBase (guestIpaBase + guestRamSize) := by
  intro range written
  have accepted : range.Accepted := by
    simp only [placeImages] at written
    split at written
    · cases written
    · split_ifs at written <;> aesop
  obtain ⟨-, -, above, below⟩ := accepted
  exact Set.Ico_subset_Ico above (by omega)

/-- The images stay inside guest RAM, and are apart exactly under `KeptApart`. -/
theorem images_apart_iff (kernel initrd dtb : List (BitVec 8)) (textOffset imageSize : Nat)
    (header : parseImageHeader kernel = some (textOffset, imageSize)) :
    (∀ range ∈ (placeImages kernel initrd dtb).1,
        range.addresses ⊆ Set.Ico guestIpaBase (guestIpaBase + guestRamSize)) ∧
      ((placeImages kernel initrd dtb).1.Pairwise
          (fun left right => Disjoint left.addresses right.addresses) ↔
        KeptApart textOffset imageSize kernel.length initrd.length dtb.length) := by
  refine ⟨written_inside kernel initrd dtb, ?_⟩
  have nonempty : 0 < kernel.length := by
    simp only [parseImageHeader] at header
    split at header
    · cases header
    · omega
  have atDtb : GuestRange.Accepted ⟨guestIpaBase, dtb.length⟩ ↔ InRam 0 dtb.length :=
    accepted_iff 0 dtb.length (by decide)
  have atKernel := accepted_iff (roundUpMb2 textOffset) kernel.length (round_up_lt textOffset)
  have atInitrd := accepted_iff (initrdOffset textOffset imageSize) initrd.length
    (Nat.mod_lt _ (by decide))
  have overDtb := ranges_apart_iff 0 dtb.length
  rw [Nat.add_zero] at overDtb
  simp only [placeImages, header, KeptApart]
  split_ifs with dtbFits kernelFits initrdFits <;>
    rw [atDtb] at dtbFits
  · rw [atKernel] at kernelFits
    rw [atInitrd] at initrdFits
    rw [in_ram_gpa kernelFits, in_ram_gpa initrdFits]
    simp only [dtbFits, kernelFits, initrdFits, overDtb, ranges_apart_iff, List.pairwise_cons,
      List.mem_cons, forall_eq_or_imp, List.not_mem_nil, List.Pairwise.nil, forall_const,
      false_imp_iff, and_true, implies_true]
    omega
  · rw [atKernel] at kernelFits
    rw [atInitrd] at initrdFits
    rw [in_ram_gpa kernelFits]
    simp only [dtbFits, kernelFits, initrdFits, overDtb, List.pairwise_pair,
      false_imp_iff, and_true, forall_const]
    omega
  · rw [atKernel] at kernelFits
    simp [kernelFits]
  · simp [dtbFits]

def bareImage (textOffset imageSize : Nat) : List (BitVec 8) :=
  encodeLE 8 0 ++ encodeLE 8 textOffset ++ encodeLE 8 imageSize ++ encodeLE 32 0 ++
    encodeLE 4 0x644D5241 ++ encodeLE 4 0

theorem bare_image_apart : parseImageHeader (bareImage 0x80000 64) = some (0x80000, 64) ∧
      KeptApart 0x80000 64 64 1 8 ∧
      (placeImages (bareImage 0x80000 64) [0] (encodeLE 8 0)).1.Pairwise
        (fun left right => Disjoint left.addresses right.addresses) := by
  have header : parseImageHeader (bareImage 0x80000 64) = some (0x80000, 64) := by decide
  have apart : KeptApart 0x80000 64 64 1 8 := by
    unfold KeptApart
    decide
  exact ⟨header, apart, (images_apart_iff _ [0] (encodeLE 8 0) _ _ header).2.mpr apart⟩

/-- A text offset of 0, as current kernels have it: the kernel lands on the device tree. -/
theorem kernel_over_device_tree : parseImageHeader (bareImage 0 64) = some (0, 64) ∧
      ¬ (placeImages (bareImage 0 64) [0] (encodeLE 8 0)).1.Pairwise
        (fun left right => Disjoint left.addresses right.addresses) := by
  refine ⟨by decide, fun apart => ?_⟩
  have written : (placeImages (bareImage 0 64) [0] (encodeLE 8 0)).1 =
      [⟨guestIpaBase + 0, 8⟩, ⟨guestIpaBase + 0, 64⟩, ⟨guestIpaBase + 0x200000, 1⟩] := by decide
  rw [written, List.pairwise_cons] at apart
  have meets := apart.1 _ List.mem_cons_self
  rw [ranges_apart_iff] at meets
  omega

end ViCell.Hypervisor
