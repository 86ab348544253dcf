/-!
# Numbers in messages

Counts, codes and numbers of requests are shown in decimal, without leading zeros.
-/

namespace ControlRig.Text

/-- A natural number in decimal. -/
def decimal (n : Nat) : String := String.ofList (Nat.toDigits 10 n)

/-- An integer in decimal, with a minus sign if it is negative. -/
def signedDecimal : Int → String
  | .ofNat n => decimal n
  | .negSucc n => "-" ++ decimal (n + 1)

end ControlRig.Text
