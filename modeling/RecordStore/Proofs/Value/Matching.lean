import Mathlib
import RecordStore.Proofs.Value.Comparing

/-!
# Addresses and texts that match them

A stored address has as many octets as its record says, and the text that it is
compared with denotes an address or does not.  If it does, comparing is comparing
octets (`sign_compareAddress_of_denotes`); if it does not, the result says how many
octets there are, which is nothing for a record without octets.  So there is one
way more to come out equal than to be equal (`compareAddress_eq_zero_iff`).
-/

namespace RecordStore.StoredValue

/-- The address that a text denotes, apart from blanks around it. -/
def denoted? (target : String) : Option IpAddress :=
  IpAddress.ofText? (Blank.trim target.toList)

/-- A text denotes the address that has these octets. -/
def Denotes (target : String) (octets : Bytes) : Prop :=
  ∃ address, denoted? target = some address ∧ address.octets = octets

section

variable {octets : Bytes} {target : String}

theorem compareAddress_of_none (h : denoted? target = none) :
    compareAddress octets target = octets.length := by
  unfold denoted? at h
  rw [compareAddress, h]

theorem compareAddress_of_some {address : IpAddress} (h : denoted? target = some address) :
    (compareAddress octets target).sign = sign (Bytes.order octets address.octets) :=
  sign_compareAddress_of_denotes h

/-- **Equal is equal**, but for a record without octets and a text without an
address. -/
theorem compareAddress_eq_zero_iff : compareAddress octets target = 0 ↔
    Denotes target octets ∨ denoted? target = none ∧ octets = [] := by
  unfold Denotes
  cases hdenoted : denoted? target with
  | none =>
      rw [compareAddress_of_none hdenoted]
      simp
  | some address =>
      have hsign : (compareAddress octets target).sign =
          sign (Bytes.order octets address.octets) := compareAddress_of_some hdenoted
      rw [← Int.sign_eq_zero_iff_zero, hsign, sign_eq_zero_iff, order_eq_iff]
      simp [eq_comm]

end

/-- **How an address compares with a text.**  A record that is read as octets, of
whatever number, compares as zero with the texts that denote them, and with no
other text if there is an octet at all.  Of a text that denotes an address the
result has the sign of the order of octets; of any other it is their number. -/
theorem compareRecord_address {record octets : Bytes} {type : ValueType} (target : String)
    (h : decode record type = .ok (.ipAddress octets)) :
    ∃ n, compareRecord record type target = .ok n ∧
      (n = 0 ↔ Denotes target octets ∨ denoted? target = none ∧ octets = []) ∧
      (octets ≠ [] → (n = 0 ↔ Denotes target octets)) ∧
      (denoted? target = none → n = octets.length) ∧
      ∀ address, denoted? target = some address →
        n.sign = sign (Bytes.order octets address.octets) := by
  refine ⟨compareAddress octets target, ?_, compareAddress_eq_zero_iff, ?_,
    compareAddress_of_none, fun _ => compareAddress_of_some⟩
  · rw [compareRecord, h]
    rfl
  · intro hsome
    rw [compareAddress_eq_zero_iff]
    simp only [hsome, and_false, or_false]

/-- An address of four octets, a text that denotes it, and one that does not. -/
theorem compareRecord_address_four :
    decode [4, 0, 192, 168, 1, 1] .ipAddress = .ok (.ipAddress [192, 168, 1, 1]) ∧
      compareRecord [4, 0, 192, 168, 1, 1] .ipAddress " 192.168.1.1 " = .ok 0 ∧
      compareRecord [4, 0, 192, 168, 1, 1] .ipAddress "192.168.1.01" = .ok 4 := by
  have hdecode : decode [4, 0, 192, 168, 1, 1] .ipAddress = .ok (.ipAddress [192, 168, 1, 1]) := by
    rfl
  have hdenotes : Denotes " 192.168.1.1 " [192, 168, 1, 1] :=
    ⟨⟨[192, 168, 1, 1], .inl rfl⟩, by decide +kernel, rfl⟩
  have hnothing : denoted? "192.168.1.01" = none := by decide +kernel
  obtain ⟨n, hn, hzero, -⟩ := compareRecord_address " 192.168.1.1 " hdecode
  obtain ⟨m, hm, -, -, hlength, -⟩ := compareRecord_address "192.168.1.01" hdecode
  refine ⟨hdecode, ?_, ?_⟩
  · rw [hn, hzero.mpr (.inl hdenotes)]
  · rw [hm, hlength hnothing]
    rfl

/-- **Without octets** a record is equal to a text that denotes no address. -/
theorem compareRecord_no_octets : decode [0, 0] .ipAddress = .ok (.ipAddress []) ∧
    denoted? "none" = none ∧ compareRecord [0, 0] .ipAddress "none" = .ok 0 := by
  have hnothing : denoted? "none" = none := by decide +kernel
  refine ⟨by rfl, hnothing, ?_⟩
  show Except.ok (compareAddress [] "none") = .ok 0
  rw [compareAddress_of_none hnothing]
  rfl

end RecordStore.StoredValue
