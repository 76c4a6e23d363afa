/-!
# Durations in words

A duration in the greatest unit that leaves a whole part, with as many decimals as it needs.
-/

namespace RemoteCall.Duration

/-- The decimals of `n` thousandths, without zeros at the end. -/
def decimals (n : Nat) : List Char :=
  let d (k : Nat) : Char := Nat.digitChar (n / k % 10)
  if n % 1000 = 0 then []
  else if n % 100 = 0 then ['.', d 100]
  else if n % 10 = 0 then ['.', d 100, d 10]
  else ['.', d 100, d 10, d 1]

/-- A duration of some milliseconds. -/
def text (milliseconds : Nat) : String :=
  if milliseconds = 0 then "0ns"
  else if milliseconds < 1000 then s!"{milliseconds}ms"
  else
    s!"{milliseconds / 1000}" ++ String.ofList (decimals milliseconds ++ ['s'])

end RemoteCall.Duration
