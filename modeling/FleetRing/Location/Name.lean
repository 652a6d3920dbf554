import FleetRing.Error

/-!
# Reading locations

Locations are read from names, from `Region/Partition` texts and from pairs of
raw integers. A text is cut at its first slash; without one the whole text is
at fault, otherwise the first part that stands in no table.
-/

namespace FleetRing

/-- The region with a name. -/
def Region.ofName (text : String) : Except Error Region :=
  match Region.ofName? text with
  | some region => .ok region
  | none => .error (.unknownName text)

/-- The region with a raw integer. -/
def Region.ofRaw (value : Int) : Except Error Region :=
  match value with
  | .ofNat index =>
    match Region.ofIndex? index with
    | some region => .ok region
    | none => .error (.unknownName ("region #" ++ toString value))
  | .negSucc _ => .error (.unknownName ("region #" ++ toString value))

/-- The partition with a name. -/
def Partition.ofName (text : String) : Except Error Partition :=
  match Partition.ofName? text with
  | some partition => .ok partition
  | none => .error (.unknownName text)

/-- The partition with a raw integer. -/
def Partition.ofRaw (value : Int) : Except Error Partition :=
  match value with
  | .ofNat index =>
    match Partition.ofIndex? index with
    | some partition => .ok partition
    | none => .error (.unknownName ("partition #" ++ toString value))
  | .negSucc _ => .error (.unknownName ("partition #" ++ toString value))

namespace Location

/-- The parts of a text before and behind its first slash. -/
def splitSlash : List Char → Option (List Char × List Char)
  | [] => none
  | '/' :: rest => some ([], rest)
  | c :: rest => (splitSlash rest).map fun parts => (c :: parts.1, parts.2)

/-- The location that a `Region/Partition` text names. -/
def ofText (text : String) : Except Error Location :=
  match splitSlash text.toList with
  | none => .error (.unknownName text)
  | some (region, partition) => do
    let region ← Region.ofName (String.ofList region)
    let partition ← Partition.ofName (String.ofList partition)
    return ⟨region, partition⟩

/-- The location of a pair of raw integers. -/
def ofRaw (region partition : Int) : Except Error Location :=
  match ofRaw? region partition with
  | some location => .ok location
  | none => .error (.unknownLocation region partition)

end Location

end FleetRing
