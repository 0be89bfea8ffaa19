import SmartCard.Hex
import SmartCard.Protocol
/-!
# Card data

What a reader says of the card that a session was started for.
-/

namespace SmartCard

/-- The description of a card in a reader. -/
structure CardData where
  /-- The name of the reader. -/
  reader : String
  /-- The answer to reset. -/
  atr : Bytes
  /-- The protocol agreed on. -/
  protocol : Protocol
deriving DecidableEq

/-- The reader, and in brackets the answer to reset and the protocol. -/
def CardData.text (c : CardData) : String :=
  c.reader ++ " (ATR " ++ Hex.encode .upper c.atr ++ ", " ++ c.protocol.name ++ ")"

end SmartCard
