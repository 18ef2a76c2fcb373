import Octets.Transform.Apply

/-!
# Bytes combined bit by bit

The laws of Boolean algebra hold of bytes because they hold of their bits, and of byte strings of
one length because they hold at every place.

* `byte_not_and`, `byte_not_or`, `byte_or_and`, `byte_and_or` — one byte.
* `combine_xor_self`, `combine_or_and`, `combine_and_or` — a second combination undoes the first, or
  is all that is left.
* `complement_combine_and`, `complement_combine_or`, `complement_combine_xor` — inverting turns
  "and" into "or" and back, and goes through "exclusive or".
* `reverse_combine` — places do not matter as long as they stay together.
-/

namespace Octets

namespace Bytes

/-! ## One byte -/

theorem byte_not_and (a b : UInt8) : ~~~(a &&& b) = ~~~a ||| ~~~b := by
  apply UInt8.toBitVec_inj.1
  ext i hi
  simp

theorem byte_not_or (a b : UInt8) : ~~~(a ||| b) = ~~~a &&& ~~~b := by
  apply UInt8.toBitVec_inj.1
  ext i hi
  simp

theorem byte_or_and (a b : UInt8) : (a ||| b) &&& b = b := by
  apply UInt8.toBitVec_inj.1
  ext i hi
  simpa using Or.inr

theorem byte_and_or (a b : UInt8) : (a &&& b) ||| b = b := by
  apply UInt8.toBitVec_inj.1
  ext i hi
  simp

/-! ## Byte strings -/

variable {bs second : Bytes}

@[simp] theorem length_complement (bs : Bytes) : bs.complement.length = bs.length := by
  simp [complement]

theorem length_combine (mode : Mode) (h : bs.length = second.length) :
    (bs.combine mode second).length = bs.length := by
  simp [combine, h]

theorem complement_complement (bs : Bytes) : bs.complement.complement = bs := by
  apply List.ext_getElem
  · simp
  · intro i _ _
    simp only [complement, List.getElem_map, UInt8.not_not]

/-- Two combinations that come to the second bytes at every place. -/
theorem combine_combine_eq_right {first next : Mode}
    (hplace : ∀ a b, next.combine (first.combine a b) b = b) (h : bs.length = second.length) :
    (bs.combine first second).combine next second = second := by
  apply List.ext_getElem
  · simp [combine, h]
  · intro i _ _
    simp only [combine, List.getElem_zipWith, hplace]

theorem combine_or_and (h : bs.length = second.length) :
    (bs.combine .or second).combine .and second = second :=
  combine_combine_eq_right byte_or_and h

theorem combine_and_or (h : bs.length = second.length) :
    (bs.combine .and second).combine .or second = second :=
  combine_combine_eq_right byte_and_or h

/-- Two "exclusive or"s are one. -/
theorem combine_xor_xor (bs second third : Bytes) :
    (bs.combine .xor second).combine .xor third = bs.combine .xor (second.combine .xor third) := by
  apply List.ext_getElem
  · simp [combine, Nat.min_assoc]
  · intro i _ _
    simp only [combine, Mode.combine, List.getElem_zipWith, UInt8.xor_assoc]

theorem combine_xor_self (h : bs.length = second.length) :
    (bs.combine .xor second).combine .xor second = bs := by
  apply List.ext_getElem
  · simp [combine, h]
  · intro i _ _
    simp only [combine, Mode.combine, List.getElem_zipWith, UInt8.xor_assoc, UInt8.xor_self,
      UInt8.xor_zero]

theorem complement_combine_and (bs second : Bytes) :
    (bs.combine .and second).complement = bs.complement.combine .or second.complement := by
  simp only [complement, combine, Mode.combine, List.map_zipWith, List.zipWith_map_left,
    List.zipWith_map_right, byte_not_and]

theorem complement_combine_or (bs second : Bytes) :
    (bs.combine .or second).complement = bs.complement.combine .and second.complement := by
  simp only [complement, combine, Mode.combine, List.map_zipWith, List.zipWith_map_left,
    List.zipWith_map_right, byte_not_or]

theorem complement_combine_xor (bs second : Bytes) :
    (bs.combine .xor second).complement = bs.complement.combine .xor second := by
  simp only [complement, combine, Mode.combine, List.map_zipWith, List.zipWith_map_left,
    UInt8.not_xor]

theorem reverse_combine (mode : Mode) (h : bs.length = second.length) :
    (bs.combine mode second).reverse = combine mode bs.reverse second.reverse :=
  List.reverse_zipWith h

end Bytes

end Octets
