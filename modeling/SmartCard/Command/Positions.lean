import SmartCard.Command.Encoding
/-!
# Reading a command by positions

`Command.decode` takes a frame apart by patterns and cannot look beyond its
end. A frame in memory is read by positions: single bytes, and ranges of
bytes, each of which may lie outside of the frame. `decodeAt?` reads in this
way. It has no result at all if it looks at a position that the frame does
not have, whatever else it would have found.
-/

namespace SmartCard

namespace Command

/-- The bytes from one position up to another, if there are such positions. -/
def slice? (bytes : Bytes) (start stop : Nat) : Option Bytes :=
  if start ≤ stop ∧ stop ≤ bytes.length then some ((bytes.take stop).drop start) else none

/-- Reads a body of at least three bytes as one with wide length fields. -/
def wideAt? (c : Command) (total : Nat) (body : Bytes) :
    Option (Except ExchangeError Command) := do
  let hi ← body[1]?
  let lo ← body[2]?
  if body.length = 3 then
    return .ok { c with le := some (extendedLe hi lo) }
  let size := wordValue hi lo
  let rest ← slice? body 3 body.length
  if size = 0 then
    return .error (.commandData "extended Lc of zero")
  if rest.length = size then
    return .ok { c with data := some rest }
  if rest.length = size + 2 then
    let data ← slice? rest 0 size
    let leHi ← rest[size]?
    let leLo ← rest[size + 1]?
    return .ok { c with data := some data, le := some (extendedLe leHi leLo) }
  return .error (.commandLength total)

/-- Reads a body of at least two bytes as one with short length fields. -/
def narrowAt? (c : Command) (total : Nat) (body : Bytes) :
    Option (Except ExchangeError Command) := do
  let lc ← body[0]?
  if lc = 0 then
    return .error (.commandLength total)
  if body.length = 1 + lc.toNat then
    let data ← slice? body 1 body.length
    return .ok { c with data := some data }
  if body.length = 2 + lc.toNat then
    let data ← slice? body 1 (1 + lc.toNat)
    let le ← body[1 + lc.toNat]?
    return .ok { c with data := some data, le := some (shortLe le) }
  return .error (.commandLength total)

/-- Reads what stands behind the header of `c` in a frame of this length. -/
def bodyAt? (c : Command) (total : Nat) (body : Bytes) :
    Option (Except ExchangeError Command) := do
  if body.length = 0 then
    return .ok c
  let first ← body[0]?
  if body.length = 1 then
    return .ok { c with le := some (shortLe first) }
  if first = 0 ∧ 3 ≤ body.length then
    wideAt? c total body
  else
    narrowAt? c total body

/-- Reads a command frame by positions. -/
def decodeAt? (frame : Bytes) : Option (Except ExchangeError Command) := do
  if frame.length < 4 then
    return .error (.commandLength frame.length)
  let cla ← frame[0]?
  let ins ← frame[1]?
  let p1 ← frame[2]?
  let p2 ← frame[3]?
  let body ← slice? frame 4 frame.length
  bodyAt? { cla, ins, p1, p2 } frame.length body

end Command

end SmartCard
