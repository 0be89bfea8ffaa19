import SmartCard.Hex
/-!
# Status words

A card ends every answer with two bytes that say how the command went.
Three values of the first one start a continuation: `61` and the
proprietary `9F` announce more data, `6C` corrects the expected length.
-/

namespace SmartCard

/-- The two bytes that end a response. -/
structure StatusWord where
  sw1 : UInt8
  sw2 : UInt8
deriving DecidableEq

namespace StatusWord

/-- First status byte of a response with more data to fetch. -/
def moreDataSw1 : UInt8 := 0x61

/-- First status byte of a response that names the right expected length. -/
def wrongLeSw1 : UInt8 := 0x6C

/-- First status byte of the proprietary form of more data. -/
def proprietarySw1 : UInt8 := 0x9F

/-- The status of a command that went well. -/
def success : StatusWord := ⟨0x90, 0x00⟩

/-- The command went well. -/
def isSuccess (s : StatusWord) : Bool :=
  s.sw1 == 0x90 && s.sw2 == 0x00

/-- More data can be fetched in the standard way. -/
def isMoreData (s : StatusWord) : Bool :=
  s.sw1 == moreDataSw1

/-- The command should be repeated with another expected length. -/
def isWrongLe (s : StatusWord) : Bool :=
  s.sw1 == wrongLeSw1

/-- The length that the second byte announces, zero standing for 256. -/
def announced (s : StatusWord) : UInt32 :=
  if s.sw2 = 0 then 256 else s.sw2.toUInt32

/-- What the status means, as far as it has a general meaning. -/
def description (s : StatusWord) : String :=
  if s.isSuccess then "Success"
  else if s.sw1 = moreDataSw1 then "More data available"
  else if s.sw1 = wrongLeSw1 then "Wrong Le field"
  else if s.sw1 = proprietarySw1 then "More data available (proprietary)"
  else if s.sw1 = 0x62 ∨ s.sw1 = 0x63 then "Warning"
  else if s = ⟨0x67, 0x00⟩ then "Wrong length"
  else if s = ⟨0x69, 0x82⟩ then "Security status not satisfied"
  else if s = ⟨0x6A, 0x82⟩ then "File not found"
  else if s = ⟨0x6D, 0x00⟩ then "Instruction not supported"
  else if s = ⟨0x6E, 0x00⟩ then "Class not supported"
  else "Unknown status word"

/-- The two bytes in upper-case hexadecimal with a blank between them. -/
def text (s : StatusWord) : String :=
  Hex.encode .upper [s.sw1] ++ " " ++ Hex.encode .upper [s.sw2]

/-- The status as the last two bytes of a frame. -/
def bytes (s : StatusWord) : Bytes :=
  [s.sw1, s.sw2]

end StatusWord

end SmartCard
