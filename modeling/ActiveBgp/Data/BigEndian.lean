import Mathlib.Algebra.Order.Ring.Nat
import Mathlib.Data.List.Induction
import Mathlib.Tactic.Positivity
import Mathlib.Tactic.Ring

namespace ActiveBgp.Data.BigEndian

section Numbers

/-- The number that the bytes stand for. -/
def value (bytes : List UInt8) : Nat := bytes.foldl (fun high byte => high * 256 + byte.toNat) 0

/-- The lowest `width` bytes of a number. -/
def digits : Nat → Nat → List UInt8
  | 0, _ => []
  | width + 1, number => digits width (number / 256) ++ [UInt8.ofNat number]

@[simp] theorem length_digits (width number : Nat) : (digits width number).length = width := by
  induction width generalizing number with
  | zero => rfl
  | succ width ih => simp [digits, ih]

theorem value_concat (bytes : List UInt8) (byte : UInt8) : value (bytes ++ [byte]) = value bytes * 256 + byte.toNat := by
  simp [value]

theorem value_lt (bytes : List UInt8) : value bytes < 256 ^ bytes.length := by
  induction bytes using List.reverseRecOn with
  | nil => simp [value]
  | append_singleton bytes byte ih =>
      have bound := byte.toNat_lt
      rw [value_concat, List.length_append, List.length_singleton, pow_succ]
      omega

theorem value_digits {width number : Nat} (fits : number < 256 ^ width) : value (digits width number) = number := by
  induction width generalizing number with
  | zero =>
      have zero : number = 0 := by simpa using fits
      rw [zero]
      rfl
  | succ width ih =>
      have high : number / 256 < 256 ^ width := by
        rw [pow_succ] at fits
        omega
      rw [digits, value_concat, ih high, UInt8.toNat_ofNat']
      omega

theorem digits_value (bytes : List UInt8) : digits bytes.length (value bytes) = bytes := by
  induction bytes using List.reverseRecOn with
  | nil => rfl
  | append_singleton bytes byte ih =>
      have bound := byte.toNat_lt
      have high : (value bytes * 256 + byte.toNat) / 256 = value bytes := by omega
      have low : UInt8.ofNat (value bytes * 256 + byte.toNat) = byte := by
        apply UInt8.toNat_inj.mp
        rw [UInt8.toNat_ofNat']
        omega
      rw [List.length_append, List.length_singleton, digits, value_concat, high, low, ih]

end Numbers

section Tables

variable {width : Nat}

/-- Numbers one after the other. -/
def table (width : Nat) (numbers : List (Fin (256 ^ width))) : List UInt8 :=
  numbers.flatMap fun number => digits width number.val

/-- Reading a number at the front of the bytes. -/
def number (width : Nat) (bytes : List UInt8) : Fin (256 ^ width) :=
  ⟨value (bytes.take width) % 256 ^ width, Nat.mod_lt _ (by positivity)⟩

theorem val_number (width : Nat) (bytes : List UInt8) :
    (number width bytes).val = value (bytes.take width) % 256 ^ width := rfl

/-- Reading that many numbers. -/
def numbers (width : Nat) : Nat → List UInt8 → List (Fin (256 ^ width))
  | 0, _ => []
  | count + 1, bytes => number width bytes :: numbers width count (bytes.drop width)

@[simp] theorem length_numbers (width count : Nat) (bytes : List UInt8) : (numbers width count bytes).length = count := by
  induction count generalizing bytes with
  | zero => rfl
  | succ count ih => simp [numbers, ih]

@[simp] theorem table_nil : table width [] = [] := rfl

@[simp] theorem table_cons (first : Fin (256 ^ width)) (rest : List (Fin (256 ^ width))) :
    table width (first :: rest) = digits width first.val ++ table width rest := rfl

@[simp] theorem length_table (entries : List (Fin (256 ^ width))) : (table width entries).length = width * entries.length := by
  induction entries with
  | nil => rfl
  | cons first rest ih =>
      rw [table_cons, List.length_append, length_digits, ih, List.length_cons]
      ring

theorem number_digits (entry : Fin (256 ^ width)) (rest : List UInt8) :
    number width (digits width entry.val ++ rest) = entry := by
  apply Fin.ext
  have front : (digits width entry.val ++ rest).take width = digits width entry.val :=
    List.take_left' (length_digits width entry.val)
  rw [val_number, front, value_digits entry.isLt, Nat.mod_eq_of_lt entry.isLt]

theorem digits_number {bytes : List UInt8} (enough : width ≤ bytes.length) :
    digits width (number width bytes).val = bytes.take width := by
  have front : (bytes.take width).length = width := List.length_take_of_le enough
  have bound := value_lt (bytes.take width)
  have read := digits_value (bytes.take width)
  rw [front] at bound read
  rw [val_number, Nat.mod_eq_of_lt bound, read]

theorem numbers_table (entries : List (Fin (256 ^ width))) (rest : List UInt8) :
    numbers width entries.length (table width entries ++ rest) = entries := by
  induction entries with
  | nil => rfl
  | cons first others ih =>
      have dropped : (digits width first.val ++ (table width others ++ rest)).drop width = table width others ++ rest :=
        List.drop_left' (length_digits width first.val)
      rw [table_cons, List.append_assoc, List.length_cons, numbers, number_digits, dropped, ih]

theorem table_numbers {count : Nat} {bytes : List UInt8} (enough : width * count ≤ bytes.length) :
    table width (numbers width count bytes) = bytes.take (width * count) := by
  induction count generalizing bytes with
  | zero => simp [numbers]
  | succ count ih =>
      rw [Nat.mul_succ] at enough ⊢
      have further : width * count ≤ (bytes.drop width).length := by
        rw [List.length_drop]
        omega
      have later := ih further
      rw [numbers, table_cons, digits_number (by omega), later, Nat.add_comm, List.take_add]

end Tables

end ActiveBgp.Data.BigEndian
