import Breakpoints.Config
import Breakpoints.Document

/-!
# Settings as documents

A missing setting has its default value; null is no value for any setting.
Writing gives all settings, and what was written is read back unchanged
(`ofDocument?_toDocument`).
-/

namespace Breakpoints

namespace Caching

def name : Caching → String
  | perEpoch => "perCollectionEpoch"
  | never => "disabled"

def ofName? (text : String) : Option Caching :=
  if text = perEpoch.name then some perEpoch
  else if text = never.name then some never
  else none

theorem ofName?_name (c : Caching) : ofName? c.name = some c := by
  cases c <;> decide

end Caching

namespace Config

/-- Markers are texts of one character each. -/
def markers? (d : Document) : Option (List Char) :=
  d.items?.bind fun items => items.mapM Document.character?

def ofDocument? (d : Document) : Option Config :=
  match d.fields? ["functionCache", "logCategory", "namedChunkMarkers"] with
  | some [caching, channel, markers] => do
    let standard : Config := {}
    return {
      caching := ← Document.orDefault standard.caching
        (fun d => d.alternative?.bind Caching.ofName?) caching
      channel := ← Document.orDefault standard.channel
        (fun d => d.alternative?.bind Channel.ofName?) channel
      markers := ← Document.orDefault standard.markers markers? markers }
  | _ => none

def toDocument (c : Config) : Document :=
  .object [("functionCache", .text c.caching.name), ("logCategory", .text c.channel.name),
    ("namedChunkMarkers", .array (c.markers.map fun m => .text (String.singleton m)))]

theorem markers?_array (ms : List Char) :
    markers? (.array (ms.map fun m => .text (String.singleton m))) = some ms := by
  show (ms.map fun m => Document.text (String.singleton m)).mapM Document.character? = some ms
  induction ms with
  | nil => rfl
  | cons m ms ih => simp [Document.character?, ih]

theorem ofDocument?_toDocument (c : Config) : ofDocument? c.toDocument = some c := by
  obtain ⟨caching, channel, markers⟩ := c
  simp [ofDocument?, toDocument, Document.fields?, List.lookup_cons, Document.orDefault,
    Document.alternative?, Caching.ofName?_name, Channel.ofName?_name, markers?_array]

end Config

end Breakpoints
