import SmartCard.Transport
/-!
# Scripted cards

A card for trials: it answers commands with the replies of a script, one
after the other, and fails when there are none left.
-/

namespace SmartCard

namespace Bench

/-- The replies that a scripted card has left. -/
abbrev Script := List Reply

/-- A card that follows its script. -/
def scripted : Card Script := fun _ script =>
  match script with
  | [] => (.error (.transport .transmission), [])
  | reply :: rest => (reply, rest)

/-- One command under a stack over a scripted card. -/
def trial (stack : Stack) (script : Script) (command : Bytes) :
    Exchange.Performance Reply Script :=
  (stack.exchange command).perform scripted script

/-- Commands one after the other to a transport over a scripted card, each with the
script that the others left. -/
def calls (t : Transport .blocking) (script : Script) :
    List Bytes → List (Exchange.Performance (Option Reply) Script)
  | [] => []
  | command :: commands =>
    let p := t.call scripted false command script
    p :: calls t p.card commands

end Bench

end SmartCard
