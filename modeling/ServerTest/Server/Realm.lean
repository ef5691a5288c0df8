import Mathlib.Logic.Function.Basic
import ServerTest.Lib.Cpp

/-!
# Realm addresses

`Realm.h`: a realm is named by its region, its site and its key in the `realmlist` table, and packed
into 32 bits as 8, 8 and 16 of them. The key is a `uint32`, of which an address has the lower half.

`CharacterCounts` of a game account (`Session.h`) is a map with addresses for keys. The loop that fills
it from the database stands in `LoginService.cpp` in a comment.
-/

set_option autoImplicit false

namespace ServerTest.Server

/-- `Battlenet::RealmHandle` -/
structure RealmHandle where
  region : UInt8
  site : UInt8
  /-- primary key in `realmlist` table -/
  realm : UInt32
  deriving DecidableEq, Repr

namespace RealmHandle

/-- `RealmHandle(uint32 realmAddress)` -/
def ofAddress (realmAddress : UInt32) : RealmHandle where
  region := (realmAddress >>> 24 &&& 0xFF).toUInt8
  site := (realmAddress >>> 16 &&& 0xFF).toUInt8
  realm := realmAddress &&& 0xFFFF

/-- `GetAddress`. The operands are promoted to `int`, and the result is converted back; a region from
128 on is shifted into the sign bit. -/
def getAddress (h : RealmHandle) : UInt32 :=
  let region : Int32 := h.region.toUInt32.toInt32 <<< 24
  let site : Int32 := h.site.toUInt32.toInt32 <<< 16
  (region ||| site ||| h.realm.toUInt16.toUInt32.toInt32).toUInt32

/-- The fields of an address do not overlap. -/
theorem toNat_getAddress (h : RealmHandle) :
    h.getAddress.toNat = h.region.toNat * 2 ^ 24 + h.site.toNat * 2 ^ 16 + h.realm.toNat % 2 ^ 16 := by
  have hunsigned : h.getAddress =
      (h.region.toUInt32 <<< 24 ||| h.site.toUInt32 <<< 16 ||| h.realm.toUInt16.toUInt32) := rfl
  have hregionLt := h.region.toNat_lt
  have hsiteLt := h.site.toNat_lt
  have hregion : (h.region.toUInt32 <<< 24).toNat = 2 ^ 24 * h.region.toNat := by
    rw [UInt32.toNat_shiftLeft, UInt8.toNat_toUInt32, Nat.shiftLeft_eq, Nat.mul_comm]
    exact Nat.mod_eq_of_lt (by simp; omega)
  have hsite : (h.site.toUInt32 <<< 16).toNat = 2 ^ 16 * h.site.toNat := by
    rw [UInt32.toNat_shiftLeft, UInt8.toNat_toUInt32, Nat.shiftLeft_eq, Nat.mul_comm]
    exact Nat.mod_eq_of_lt (by simp; omega)
  have hrealm : h.realm.toUInt16.toUInt32.toNat = h.realm.toNat % 2 ^ 16 := by
    rw [UInt16.toNat_toUInt32, UInt32.toNat_toUInt16]
  have hlow : 2 ^ 16 * h.site.toNat ||| h.realm.toNat % 2 ^ 16 =
      2 ^ 16 * h.site.toNat + h.realm.toNat % 2 ^ 16 :=
    (Nat.two_pow_add_eq_or_of_lt (Nat.mod_lt _ (by decide)) _).symm
  rw [hunsigned, UInt32.toNat_or, UInt32.toNat_or, hregion, hsite, hrealm, Nat.or_assoc, hlow,
    ← Nat.two_pow_add_eq_or_of_lt (by omega)]
  omega

theorem toNat_ofAddress (a : UInt32) :
    (ofAddress a).region.toNat = a.toNat / 2 ^ 24 ∧
    (ofAddress a).site.toNat = a.toNat / 2 ^ 16 % 2 ^ 8 ∧
      (ofAddress a).realm.toNat = a.toNat % 2 ^ 16 := by
  have hlt := a.toNat_lt
  have hmask : ∀ x : UInt32, (x &&& 0xFF).toUInt8.toNat = x.toNat % 2 ^ 8 := by
    intro x
    rw [UInt32.toNat_toUInt8, UInt32.toNat_and]
    exact (congrArg (· % 256) (Nat.and_two_pow_sub_one_eq_mod x.toNat 8)).trans (Nat.mod_mod _ _)
  have hregion : (a >>> 24).toNat = a.toNat / 2 ^ 24 := by
    rw [UInt32.toNat_shiftRight, Nat.shiftRight_eq_div_pow]
    rfl
  have hsite : (a >>> 16).toNat = a.toNat / 2 ^ 16 := by
    rw [UInt32.toNat_shiftRight, Nat.shiftRight_eq_div_pow]
    rfl
  refine ⟨?_, ?_, ?_⟩
  · show (a >>> 24 &&& 0xFF).toUInt8.toNat = _
    rw [hmask, hregion]
    omega
  · show (a >>> 16 &&& 0xFF).toUInt8.toNat = _
    rw [hmask, hsite]
  · show (a &&& 0xFFFF).toNat = _
    rw [UInt32.toNat_and]
    exact Nat.and_two_pow_sub_one_eq_mod a.toNat 16

/-- A handle by the values of its fields. -/
theorem ext_toNat {h h' : RealmHandle} (hregion : h.region.toNat = h'.region.toNat)
    (hsite : h.site.toNat = h'.site.toNat) (hrealm : h.realm.toNat = h'.realm.toNat) : h = h' := by
  obtain ⟨region, site, realm⟩ := h
  obtain ⟨region', site', realm'⟩ := h'
  rw [mk.injEq]
  exact ⟨UInt8.toNat_inj.mp hregion, UInt8.toNat_inj.mp hsite, UInt32.toNat_inj.mp hrealm⟩

theorem getAddress_ofAddress (a : UInt32) : (ofAddress a).getAddress = a := by
  obtain ⟨hregion, hsite, hrealm⟩ := toNat_ofAddress a
  have hlt := a.toNat_lt
  apply UInt32.toNat_inj.mp
  rw [toNat_getAddress, hregion, hsite, hrealm]
  omega

/-- What is left of a handle after it has been an address. -/
theorem ofAddress_getAddress (h : RealmHandle) :
    ofAddress h.getAddress = { h with realm := h.realm % 0x10000 } := by
  obtain ⟨hregion, hsite, hrealm⟩ := toNat_ofAddress h.getAddress
  have haddress := toNat_getAddress h
  have hregionLt := h.region.toNat_lt
  have hsiteLt := h.site.toNat_lt
  apply ext_toNat
  · show _ = h.region.toNat
    rw [hregion]
    omega
  · show _ = h.site.toNat
    rw [hsite]
    omega
  · rw [hrealm, UInt32.toNat_mod]
    show _ = h.realm.toNat % 2 ^ 16
    omega

/-- Two handles share an address when they agree in all an address has of them. -/
theorem getAddress_eq_iff (h h' : RealmHandle) :
    h.getAddress = h'.getAddress ↔
      h.region = h'.region ∧ h.site = h'.site ∧ h.realm % 0x10000 = h'.realm % 0x10000 := by
  constructor
  · intro heq
    have hback := congrArg ofAddress heq
    rw [ofAddress_getAddress, ofAddress_getAddress, mk.injEq] at hback
    exact hback
  · rintro ⟨hregion, hsite, hrealm⟩
    rw [← getAddress_ofAddress h.getAddress, ← getAddress_ofAddress h'.getAddress,
      ofAddress_getAddress, ofAddress_getAddress, hregion, hsite, hrealm]

theorem mod_eq_self_iff (realm : UInt32) : realm % 0x10000 = realm ↔ realm.toNat < 2 ^ 16 := by
  rw [← UInt32.toNat_inj, UInt32.toNat_mod]
  show realm.toNat % 2 ^ 16 = realm.toNat ↔ _
  omega

/-- Small keys are all in the address. -/
theorem getAddress_inj {h h' : RealmHandle} (hsmall : h.realm.toNat < 2 ^ 16)
    (hsmall' : h'.realm.toNat < 2 ^ 16) (heq : h.getAddress = h'.getAddress) : h = h' := by
  obtain ⟨hregion, hsite, hrealm⟩ := (getAddress_eq_iff h h').mp heq
  rw [(mod_eq_self_iff _).mpr hsmall, (mod_eq_self_iff _).mpr hsmall'] at hrealm
  exact ext_toNat (by rw [hregion]) (by rw [hsite]) (by rw [hrealm])

end RealmHandle

/-- `CharacterCounts` after the rows of the query, each a realm and the number of characters there. -/
def characterCounts (rows : List (RealmHandle × UInt8)) : UInt32 → Option UInt8 :=
  rows.foldl (fun counts row => Function.update counts row.1.getAddress (some row.2)) fun _ => none

/-- What the rows say of one realm: the last of its own. -/
def countOf (rows : List (RealmHandle × UInt8)) (h : RealmHandle) : Option UInt8 :=
  (rows.filter (·.1 = h)).getLast?.map (·.2)

/-- The map has for each realm what the rows say of it, as long as all keys are small. -/
theorem characterCounts_eq {rows : List (RealmHandle × UInt8)} {h : RealmHandle}
    (hrows : ∀ row ∈ rows, row.1.realm.toNat < 2 ^ 16) (hsmall : h.realm.toNat < 2 ^ 16) :
    characterCounts rows h.getAddress = countOf rows h := by
  induction rows using List.reverseRecOn with
  | nil => rfl
  | append_singleton rows row ih =>
    have hrow := hrows row (by simp)
    have hbefore := ih fun r hr => hrows r (List.mem_append_left _ hr)
    rw [characterCounts, List.foldl_append, List.foldl_cons, List.foldl_nil, countOf,
      List.filter_append]
    by_cases heq : row.1 = h
    · subst heq
      simp
    · have hother : h.getAddress ≠ row.1.getAddress := fun haddress =>
        heq (RealmHandle.getAddress_inj hrow hsmall haddress.symm)
      have hnone : [row].filter (·.1 = h) = [] := by simp [heq]
      rw [Function.update_of_ne hother, hnone, List.append_nil]
      exact hbefore

/-- **What a realm address identifies.** Every address is the address of the handle made of it. A handle
comes back from its address with the lower 16 bits of its key, and so itself exactly when it has no
others; handles share an address when region, site and those bits agree; and while all keys are below
`2 ^ 16`, equal addresses are equal realms and `CharacterCounts` has every realm's own count. -/
theorem realmAddress_identifies (a : UInt32) (h h' : RealmHandle)
    (rows : List (RealmHandle × UInt8)) :
    (RealmHandle.ofAddress a).getAddress = a ∧
    RealmHandle.ofAddress h.getAddress = { h with realm := h.realm % 0x10000 } ∧
    (RealmHandle.ofAddress h.getAddress = h ↔ h.realm.toNat < 2 ^ 16) ∧
    (h.getAddress = h'.getAddress ↔
      h.region = h'.region ∧ h.site = h'.site ∧ h.realm % 0x10000 = h'.realm % 0x10000) ∧
    (h.realm.toNat < 2 ^ 16 → h'.realm.toNat < 2 ^ 16 → h.getAddress = h'.getAddress → h = h') ∧
    ((∀ row ∈ rows, row.1.realm.toNat < 2 ^ 16) → h.realm.toNat < 2 ^ 16 →
      characterCounts rows h.getAddress = countOf rows h) := by
  refine ⟨RealmHandle.getAddress_ofAddress a, RealmHandle.ofAddress_getAddress h, ?_,
    RealmHandle.getAddress_eq_iff h h', RealmHandle.getAddress_inj, characterCounts_eq⟩
  rw [RealmHandle.ofAddress_getAddress, ← RealmHandle.mod_eq_self_iff]
  obtain ⟨region, site, realm⟩ := h
  rw [RealmHandle.mk.injEq]
  simp

/-- The realms 1 and 65537 have one address, and one entry in the map. -/
theorem not_realmAddress_identifies :
    RealmHandle.ofAddress (RealmHandle.mk 1 1 65537).getAddress ≠ ⟨1, 1, 65537⟩ ∧
    (RealmHandle.mk 1 1 65537).getAddress = (RealmHandle.mk 1 1 1).getAddress ∧
    characterCounts [(⟨1, 1, 1⟩, 3), (⟨1, 1, 65537⟩, 5)] (RealmHandle.mk 1 1 1).getAddress ≠
      countOf [(⟨1, 1, 1⟩, 3), (⟨1, 1, 65537⟩, 5)] ⟨1, 1, 1⟩ := by
  decide

end ServerTest.Server
