/-
# Responders

In a rehearsal the handlers of an application are described and not programmed.  A responder looks
at the application, the UUIDs of the request and the bytes that are written, if any, and answers
with bytes or a failure:

| responder | answer |
| --- | --- |
| `echo` | the UUIDs as texts, joined by bars |
| `name` | the bus name and the path of the application |
| `expand` | the fifth to eighth character of the last UUID, expanded by the application |
| `store` | what was last written under the same UUIDs; fails if nothing was |
| `bytes` | fixed bytes |
| `fail` | a fixed failure |
| `choose` | that of another responder, chosen by the last UUID |

The responders of one application share a memory of what was written.
-/

import GattServer.Application.Handlers
import GattServer.FinMap

namespace GattServer

/-- What was written, under the joined UUIDs of the request. -/
abbrev Memory := FinMap String (List UInt8)

/-- A description of a handler. -/
inductive Responder where
  | echo
  | name
  | expand
  | store
  | bytes (bs : List UInt8)
  | fail (message : String)
  /-- Goes by the text of the last UUID, and by `otherwise` where no case has it. -/
  | choose (cases : List (String × Responder)) (otherwise : Responder)

namespace Responder

instance : Inhabited Responder := ⟨.bytes []⟩

/-- The texts of UUIDs, joined by bars. -/
def joined (ids : List Uuid) : String := "|".intercalate (ids.map Uuid.text)

/-- The text of the last UUID. -/
def lastText (ids : List Uuid) : String := (ids.getLast?.map Uuid.text).getD ""

mutual

/-- What a responder answers, and the memory from then on. -/
def respond (p : Profile) (ids : List Uuid) (written : Option (List UInt8)) (memory : Memory) :
    Responder → Except String (List UInt8) × Memory
  | echo => (.ok (Text.bytes (joined ids)), memory)
  | name => (.ok (Text.bytes (p.settings.name ++ p.path.text)), memory)
  | expand =>
    let short := String.ofList (((lastText ids).toList.drop 4).take 4)
    (.ok (Text.bytes (p.settings.generateUuid short)), memory)
  | store =>
    match written with
    | some value => (.ok [], memory.insert (joined ids) value)
    | none =>
      match memory.find? (joined ids) with
      | some value => (.ok value, memory)
      | none => (.error ("nothing stored for " ++ joined ids), memory)
  | bytes bs => (.ok bs, memory)
  | fail message => (.error message, memory)
  | choose cases otherwise =>
    match respondBy p ids written memory cases with
    | some r => r
    | none => otherwise.respond p ids written memory

/-- What the first case for the last UUID answers, if there is one. -/
def respondBy (p : Profile) (ids : List Uuid) (written : Option (List UInt8)) (memory : Memory) :
    List (String × Responder) → Option (Except String (List UInt8) × Memory)
  | [] => none
  | (text, responder) :: rest =>
    if text = lastText ids then some (responder.respond p ids written memory)
    else respondBy p ids written memory rest

end

/-- A responder that takes writes: its bytes are dropped. -/
def accept (r : Responder) (p : Profile) (ids : List Uuid) (value : List UInt8) (memory : Memory) :
    Except String Unit × Memory :=
  let (answer, memory) := r.respond p ids (some value) memory
  (answer.map fun _ => (), memory)

/-- The handlers that four responders describe, each of which may be absent. -/
def handlers (read write descriptorRead descriptorWrite : Option Responder) : Handlers Memory where
  read := read.map fun r app s c memory => r.respond app.profile [s, c] none memory
  write := write.map fun r app s c value memory => r.accept app.profile [s, c] value memory
  descriptorRead := descriptorRead.map fun r app s c d memory =>
    r.respond app.profile [s, c, d] none memory
  descriptorWrite := descriptorWrite.map fun r app s c d value memory =>
    r.accept app.profile [s, c, d] value memory

end Responder
end GattServer
