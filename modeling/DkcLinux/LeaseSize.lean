import DkcLinux.Lease
import DkcLinux.LeaseSafety
import Mathlib.Data.String.Basic

/-!
# How many bytes a lease takes

The timestamps of a record are of one length, so the records that one owner holds are of one size
(`held_size`), and a free record is not larger (`free_size`).
-/

open Py String

namespace LeaseSize

/-- The bytes of a canonical record. -/
theorem canonical_size {v : Json} {b : ByteArray} (h : Serialize.canonical_bytes v = .ok b) :
    b.size = utf8Len v.sortKeys.render + 1 := by
  unfold Serialize.canonical_bytes Json.dumps at h
  by_cases hfloat : v.rejectFloats = true
  · rw [if_pos hfloat] at h
    cases h
  · rw [if_neg hfloat] at h
    cases h
    have hsize : ∀ s : String, s.toUTF8.size = s.utf8ByteSize := fun s => by simp
    rw [hsize, utf8ByteSize_ofList, utf8Len_append]
    rfl

/-! ## Timestamps -/

theorem digit_plain (n : Nat) : Json.escape (Calendar.digit n) = [Calendar.digit n] ∧ (Calendar.digit n).utf8Size = 1 := by
  have h : ∀ m < 10, Json.escape (Char.ofNat (48 + m)) = [Char.ofNat (48 + m)] ∧ (Char.ofNat (48 + m)).utf8Size = 1 := by
    decide
  exact h _ (Nat.mod_lt n (by decide))

/-- Twenty characters and two quotes. -/
theorem quote_strftime (t : Nat) : utf8Len (Json.quote (Calendar.strftime t)) = 22 := by
  simp only [Json.quote, Calendar.strftime, Calendar.four, Calendar.two, String.toList_ofList, List.cons_append,
    List.nil_append, List.append_assoc, List.flatMap_cons, List.flatMap_nil, (digit_plain _).1, utf8Len_cons,
    utf8Len_append, utf8Len_nil, (digit_plain _).2]
  decide

/-! ## Records -/

/-- The bytes of a record that `owner` holds. -/
def leaseSize (owner : LeaseOwner) : Nat := 174 + utf8Len owner.to_dict.sortKeys.render

theorem held_fields {m : LeaseManager} {owner : LeaseOwner} {now : Nat} {acquired : Option Nat} {r : LeaseRecord}
    (h : m.held_record owner now acquired = .ok r) : r.to_dict.sortKeys =
      .obj [("acquired_utc", .str (Calendar.strftime (acquired.getD now))),
        ("expires_utc", .str (Calendar.strftime (now + m.ttl_seconds))), ("owner", owner.to_dict.sortKeys),
        ("schema", .str "dkc.production-lease.v1"), ("status", .str "held"),
        ("updated_utc", .str (Calendar.strftime now))] := by
  unfold LeaseManager.held_record at h
  split at h
  · have hf := LeaseRecord.make_ok h
    obtain ⟨o, a, e, hfields, hsort⟩ := LeaseRecord.held_written (r := r) (by rw [hf])
    rw [hf] at hfields
    simp only [LeaseRecordFields.mk.injEq, Option.some.injEq] at hfields
    obtain ⟨-, -, rfl, rfl, rfl, -, -⟩ := hfields
    rw [hsort, hf]
  · cases h

/-- **A renewal keeps the size.** -/
theorem held_size {m : LeaseManager} {owner : LeaseOwner} {now : Nat} {acquired : Option Nat} {r : LeaseRecord}
    (h : m.held_record owner now acquired = .ok r) {b : ByteArray}
    (hb : Serialize.canonical_bytes r.to_dict = .ok b) : b.size = leaseSize owner := by
  rw [canonical_size hb, held_fields h]
  simp only [Json.render, Json.renderFields, utf8Len_cons, utf8Len_append, quote_strftime, leaseSize]
  have hkeys : utf8Len (Json.quote "acquired_utc") = 14 ∧ utf8Len (Json.quote "expires_utc") = 13 ∧
      utf8Len (Json.quote "owner") = 7 ∧ utf8Len (Json.quote "schema") = 8 ∧
      utf8Len (Json.quote "dkc.production-lease.v1") = 25 ∧ utf8Len (Json.quote "status") = 8 ∧
      utf8Len (Json.quote "held") = 6 ∧ utf8Len (Json.quote "updated_utc") = 13 := by decide
  obtain ⟨h₁, h₂, h₃, h₄, h₅, h₆, h₇, h₈⟩ := hkeys
  rw [h₁, h₂, h₃, h₄, h₅, h₆, h₇, h₈]
  have hchars : ','.utf8Size = 1 ∧ ':'.utf8Size = 1 ∧ '{'.utf8Size = 1 ∧ '}'.utf8Size = 1 := by decide
  obtain ⟨hcomma, hcolon, hopen, hclose⟩ := hchars
  rw [hcomma, hcolon, hopen, hclose, utf8Len_nil]
  omega

/-- **A free record is not larger.** -/
theorem free_size {now : Nat} {r : LeaseRecord} (h : LeaseManager.free_record now = .ok r) {b : ByteArray}
    (hb : Serialize.canonical_bytes r.to_dict = .ok b) (owner : LeaseOwner) : b.size ≤ leaseSize owner := by
  have hf := LeaseRecord.make_ok h
  obtain ⟨t, hfields, hsort⟩ := LeaseRecord.free_written (r := r) (by rw [hf])
  rw [hf] at hfields
  simp only [LeaseRecordFields.mk.injEq, Option.some.injEq] at hfields
  obtain ⟨-, -, -, -, -, rfl, -⟩ := hfields
  rw [canonical_size hb, hsort, hf]
  simp only [Json.render, Json.renderFields, utf8Len_cons, utf8Len_append, quote_strftime, leaseSize]
  have hkeys : utf8Len (Json.quote "released_utc") = 14 ∧ utf8Len (Json.quote "schema") = 8 ∧
      utf8Len (Json.quote "dkc.production-lease.v1") = 25 ∧ utf8Len (Json.quote "status") = 8 ∧
      utf8Len (Json.quote "free") = 6 ∧ utf8Len (Json.quote "updated_utc") = 13 := by decide
  obtain ⟨h₁, h₂, h₃, h₄, h₅, h₆⟩ := hkeys
  rw [h₁, h₂, h₃, h₄, h₅, h₆]
  have hchars : ','.utf8Size = 1 ∧ ':'.utf8Size = 1 ∧ '{'.utf8Size = 1 ∧ '}'.utf8Size = 1 := by decide
  obtain ⟨hcomma, hcolon, hopen, hclose⟩ := hchars
  rw [hcomma, hcolon, hopen, hclose, utf8Len_nil]
  omega

end LeaseSize
