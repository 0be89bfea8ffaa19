import SmartCard.Text.Blank
/-!
# Transmission protocols

The protocol asked for when a card is connected, or agreed with it. A name
is read with blanks around it and in either case of the plain letters.
-/

namespace SmartCard

/-- How a reader talks to a card. -/
inductive Protocol where
  /-- Character by character. -/
  | t0
  /-- Block by block. -/
  | t1
  /-- Whatever the reader and the card agree on. -/
  | any
  /-- To the reader itself, without a card protocol. -/
  | direct
deriving DecidableEq

namespace Protocol

/-- The protocol asked for when none is chosen. -/
def standard : Protocol := .any

/-- The name of a protocol. -/
def name : Protocol → String
  | .t0 => "T=0"
  | .t1 => "T=1"
  | .any => "*"
  | .direct => "DIRECT"

/-- The text names no protocol. -/
structure UnknownName where
  given : String
deriving DecidableEq

/-- The text of the failure, with the name as it was given. -/
def UnknownName.text (e : UnknownName) : String :=
  "Unknown protocol: " ++ e.given

/-- Reads the name of a protocol. -/
def ofName (given : String) : Except UnknownName Protocol :=
  let key := (Text.trim given).map Char.toUpper
  if key = "T=0" ∨ key = "T0" then .ok .t0
  else if key = "T=1" ∨ key = "T1" then .ok .t1
  else if key = "*" ∨ key = "ANY" then .ok .any
  else if key = "DIRECT" then .ok .direct
  else .error ⟨given⟩

end Protocol

end SmartCard
