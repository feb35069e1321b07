import StreamWorker.Text.Utf8

/-! Percent encoding: a percent sign with two hexadecimal digits stands for one byte. A percent sign
without them stands for itself. -/

namespace StreamWorker.Percent

private def hex? (b : UInt8) : Option UInt8 :=
  if 48 ≤ b ∧ b ≤ 57 then some (b - 48)
  else if 97 ≤ b ∧ b ≤ 102 then some (b - 87)
  else if 65 ≤ b ∧ b ≤ 70 then some (b - 55)
  else none

/-- The bytes that encoded bytes stand for. -/
def decode : Bytes → Bytes
  | 37 :: a :: b :: rest =>
    match hex? a, hex? b with
    | some x, some y => (x * 16 + y) :: decode rest
    | _, _ => 37 :: decode (a :: b :: rest)
  | b :: rest => b :: decode rest
  | [] => []

end StreamWorker.Percent
