import DatasetCache.Key.Json
import DatasetCache.Report

/-!
# Surveys

What can be said about a list of keys as a whole: how each is written, in which
order they come, and which of them are equal.
-/

namespace DatasetCache.Key

/-- The places of the keys in key order; equal keys keep their order. -/
def sortedPlaces (keys : List Key) : List Nat :=
  (keys.zipIdx.mergeSort fun a b => (compare a.1 b.1).isLE).map (·.2)

/-- For each key the place of the first one equal to it. -/
def firstEqual (keys : List Key) : List Nat := keys.map fun key => keys.idxOf key

def countDistinct (keys : List Key) : Nat := keys.eraseDups.length

def parts (key : Key) : List (String × Json) :=
  [("name", .str key.name), ("arguments", Report.arguments key.arguments),
    ("display", .str key.display)]

def survey (keys : List Key) : Json :=
  .record [
    ("keys", .arr (keys.map fun key => .record (("json", .str key.jsonText) :: key.parts))),
    ("sorted", .arr ((sortedPlaces keys).map .nat)),
    ("first_equal", .arr ((firstEqual keys).map .nat)),
    ("unique", .nat (countDistinct keys))]

end DatasetCache.Key
