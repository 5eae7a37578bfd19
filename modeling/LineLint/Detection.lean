import LineLint.Dialect
import LineLint.Text.Search

/-! # Detecting the dialect

Each dialect has a few telltale texts.  The dialects are tried in a fixed order,
and the first one with a telltale text anywhere in the snippet wins; nothing is
weighed up.
-/
namespace LineLint
namespace Detection

/-- The dialects in the order in which they are tried, with their telltale texts in small
letters. -/
def tiers : List (Dialect × List String) :=
  [(.csharp, ["using ", "namespace", "public class", "void"]),
   (.vbnet, ["imports ", "module", "sub", "end sub"]),
   (.sql, ["select ", "insert ", "update ", "create table"])]

/-- Whether one of the telltale texts occurs in a text in small letters. -/
def holdsMarker (lowered : List Char) (markers : List String) : Bool :=
  markers.any fun marker => Text.contains lowered marker.toList

/-- The dialect of a text. -/
def detect (text : List Char) : Dialect :=
  if Text.isBlank text then .unknown
  else
    match tiers.find? fun tier => holdsMarker (Text.lower text) tier.2 with
    | some (dialect, _) => dialect
    | none => .unknown

end Detection
end LineLint
