/-!
# Session identifiers

Identifiers of 128 bits that look random, written as 32 hexadecimal digits in five groups.  Six bits
say which kind of identifier it is; the other 122 come from a seed and a count, and differ for any
two counts below `2 ^ 122`, since they grow by an odd number each time.
-/

namespace Workbench
namespace Identifier

/-- The bits of the identifier for a count. -/
def bits (seed count : Nat) : Nat :=
  (seed + count * 0x9E3779B97F4A7C15F39CC0605CEDC835) % Nat.pow 2 122

/-- A number written with exactly `width` hexadecimal digits. -/
def hex (width n : Nat) : String :=
  let digits := Nat.toDigits 16 (n % Nat.pow 16 width)
  String.ofList (List.replicate (width - digits.length) '0' ++ digits)

/-- The identifier for a count. -/
def text (seed count : Nat) : String :=
  let n := bits seed count
  String.intercalate "-"
    [hex 8 (n / Nat.pow 2 90), hex 4 (n / Nat.pow 2 74), "4" ++ hex 3 (n / Nat.pow 2 62),
      hex 4 (0x8000 + n / Nat.pow 2 48 % Nat.pow 2 14), hex 12 n]

end Identifier
end Workbench
