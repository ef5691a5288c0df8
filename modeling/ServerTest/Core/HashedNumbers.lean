import ServerTest.Core.BigNumber
import ServerTest.Core.SHA256

/-!
# `UpdateBigNumbers`

Hashing numbers: each is appended as `AsByteArray()` writes it, the least significant byte first and
no zeros behind the last, with nothing between two of them and no length or sign before them.

So the hash is of the digits of all the numbers in one row, and a row of digits is itself a number:
whatever list is given, the context is as if the one number had been given whose digits these are. A
zero in the list leaves no trace, and neither does the place where one number ends and the next begins.
-/

set_option autoImplicit false

namespace ServerTest.Core

open Lib

/-- `UpdateBigNumbers`, on the pointers of the call from `bn0` on. The loop ends at a null pointer; it
does not know how many there are, and without a null pointer it reads behind the last. -/
def SHA256Hash.updateBigNumbers (ssl : OpenSSL) (junk : Nat → UInt8) (hash : SHA256Hash) :
    List (Option BigNumber) → Except Fault SHA256Hash
  | [] => .error .outOfBounds
  | none :: _ => .ok hash
  | some bn :: rest => do
    let array ← bn.asByteArray ssl junk 0 true
    let hash ← hash.appendBytes array (Int32.ofInt (bn.getNumBytes ssl))
    hash.updateBigNumbers ssl junk rest

/-- The number whose digits in base 256 are those of the numbers of a list, the first lowest. -/
def packed : List BigNumber → Nat
  | [] => 0
  | n :: ns => n.bn.natAbs + 256 ^ (Nat.digits 256 n.bn.natAbs).length * packed ns

/-- What `AsByteArray()` writes of every number. -/
def transcript (ssl : OpenSSL) (ns : List BigNumber) : Bytes :=
  ns.flatMap fun n => (ssl.bnBn2bin n.bn).reverse

section

variable {ssl : OpenSSL} (h : ssl.Documented)

include h

theorem length_bnBn2bin (a : Int) :
    (ssl.bnBn2bin a).length = (Nat.digits 256 a.natAbs).length := by
  have hdigits := digits_bytesValue (BigNumber.getLast?_reverse_ne h a)
  rw [h.bn2bin] at hdigits
  rw [hdigits, List.length_map, List.length_reverse]

theorem bytesValue_transcript (ns : List BigNumber) :
    bytesValue (transcript ssl ns) = packed ns := by
  induction ns with
  | nil => rfl
  | cons n ns ih =>
    rw [transcript, List.flatMap_cons, bytesValue_append, h.bn2bin, List.length_reverse,
      length_bnBn2bin h, packed, ← ih]
    rfl

/-- No number ends in a zero, so neither does what is written of several. -/
theorem getLast?_transcript (ns : List BigNumber) :
    (transcript ssl ns).getLast? ≠ some 0 := by
  induction ns with
  | nil =>
    intro hlast
    cases hlast
  | cons n ns ih =>
    rw [transcript, List.flatMap_cons, List.getLast?_append]
    show (transcript ssl ns).getLast?.or _ ≠ some 0
    cases hlast : (transcript ssl ns).getLast? with
    | none => exact BigNumber.getLast?_reverse_ne h n.bn
    | some b => rwa [hlast] at ih

theorem transcript_eq (ns : List BigNumber) :
    transcript ssl ns = (ssl.bnBn2bin (packed ns)).reverse := by
  apply eq_of_bytesValue_eq (getLast?_transcript h ns) (BigNumber.getLast?_reverse_ne h _)
  rw [bytesValue_transcript h, h.bn2bin, Int.natAbs_natCast]

/-- One iteration. -/
theorem appendBytes_number (junk : Nat → UInt8) (hash : SHA256Hash) {n : BigNumber}
    (hsize : n.getNumBytes ssl < 2 ^ 31) :
    (do
      let array ← n.asByteArray ssl junk 0 true
      hash.appendBytes array (Int32.ofInt (n.getNumBytes ssl))) =
      .ok { hash with context := hash.context ++ (ssl.bnBn2bin n.bn).reverse } := by
  have hbytes := BigNumber.asByteArray_eq h junk n 0 true
  rw [if_pos rfl, Int.toNat_zero, Nat.zero_sub, List.replicate_zero, List.append_nil] at hbytes
  rw [BigNumber.getNumBytes, h.numBytes] at hsize ⊢
  have hlength : ((Int32.ofInt (ssl.bnBn2bin n.bn).length).toInt % 2 ^ 64).toNat =
      (ssl.bnBn2bin n.bn).length := by
    rw [Int32.toInt_ofInt_of_le (by omega) (by omega)]
    omega
  rw [hbytes]
  show SHA256Hash.appendBytes _ _ _ = _
  rw [SHA256Hash.appendBytes, hlength, load, if_pos (by simp), List.drop_zero,
    List.take_of_length_le (by simp)]
  rfl

theorem updateBigNumbers_eq (junk : Nat → UInt8) (after : List (Option BigNumber)) :
    ∀ (ns : List BigNumber) (hash : SHA256Hash), (∀ n ∈ ns, n.getNumBytes ssl < 2 ^ 31) →
      hash.updateBigNumbers ssl junk (ns.map some ++ none :: after) =
        .ok { hash with context := hash.context ++ transcript ssl ns } := by
  intro ns
  induction ns with
  | nil =>
    intro hash _
    rw [transcript, List.flatMap_nil, List.append_nil]
    rfl
  | cons n ns ih =>
    intro hash hsize
    have hstep := appendBytes_number h junk hash (hsize n (by simp))
    obtain ⟨array, harray, happend⟩ := bind_returns.mp hstep
    rw [List.map_cons, List.cons_append, SHA256Hash.updateBigNumbers]
    refine bind_returns.mpr ⟨array, harray, bind_returns.mpr ⟨_, happend, ?_⟩⟩
    rw [ih _ fun m hm => hsize m (List.mem_cons_of_mem _ hm), List.append_assoc]
    rfl

end

/-- **What a hash knows of a list of numbers.** The call appends `AsByteArray()` of one number, the
digits of the list in a row; and two lists come to the same digest under every hash function exactly
when that number is the same. -/
theorem updateBigNumbers_as_one {ssl : OpenSSL} (h : ssl.Documented) (junk : Nat → UInt8)
    (hash : SHA256Hash) {ns ms : List BigNumber} (hns : ∀ n ∈ ns, n.getNumBytes ssl < 2 ^ 31)
    (hms : ∀ m ∈ ms, m.getNumBytes ssl < 2 ^ 31) (after after' : List (Option BigNumber)) :
    ∃ a b bytes,
      hash.updateBigNumbers ssl junk (ns.map some ++ none :: after) = .ok a ∧
      hash.updateBigNumbers ssl junk (ms.map some ++ none :: after') = .ok b ∧
      (BigNumber.mk (packed ns)).asByteArray ssl junk 0 true = .ok bytes ∧
      a = { hash with context := hash.context ++ bytes } ∧
      ((∀ sha256 : Bytes → Digest,
        (a.calculateHash sha256).digest = (b.calculateHash sha256).digest) ↔
          packed ns = packed ms) := by
  have hbytes := BigNumber.asByteArray_eq h junk ⟨packed ns⟩ 0 true
  rw [if_pos rfl, Int.toNat_zero, Nat.zero_sub, List.replicate_zero, List.append_nil,
    ← transcript_eq h] at hbytes
  refine ⟨_, _, _, updateBigNumbers_eq h junk after ns hash hns,
    updateBigNumbers_eq h junk after' ms hash hms, hbytes, rfl, ?_⟩
  constructor
  · intro hsame
    -- a hash function that knows the first context from every other
    have hcontext := hsame fun context =>
      if context = hash.context ++ transcript ssl ns then SHA256Hash.new.digest
      else ⟨List.replicate 32 1, by simp⟩
    have heq : transcript ssl ns = transcript ssl ms := by
      by_contra hne
      simp only [SHA256Hash.calculateHash, List.append_cancel_left_eq, if_true,
        if_neg (Ne.symm hne)] at hcontext
      exact absurd (congrArg Subtype.val hcontext) (by decide)
    rw [← bytesValue_transcript h ns, heq, bytesValue_transcript h]
  · intro hpacked sha256
    rw [transcript_eq h, transcript_eq h, hpacked]

/-- One and two hash as 513 does. -/
theorem updateBigNumbers_as_one_split : OpenSSL.ofDigits.Documented ∧
    ∃ a b, SHA256Hash.new.updateBigNumbers OpenSSL.ofDigits (fun _ => 0)
        [some ⟨1⟩, some ⟨2⟩, none] = .ok a ∧
      SHA256Hash.new.updateBigNumbers OpenSSL.ofDigits (fun _ => 0) [some ⟨513⟩, none] = .ok b ∧
      ∀ sha256 : Bytes → Digest,
        (a.calculateHash sha256).digest = (b.calculateHash sha256).digest := by
  obtain ⟨a, b, -, ha, hb, -, -, hsame⟩ :=
    updateBigNumbers_as_one OpenSSL.ofDigits_documented (fun _ => 0) SHA256Hash.new
      (show ∀ n ∈ [BigNumber.mk 1, ⟨2⟩], n.getNumBytes OpenSSL.ofDigits < 2 ^ 31 by decide)
      (show ∀ n ∈ [BigNumber.mk 513], n.getNumBytes OpenSSL.ofDigits < 2 ^ 31 by decide) [] []
  exact ⟨OpenSSL.ofDigits_documented, a, b, ha, hb, hsame.mpr (by decide)⟩

end ServerTest.Core
