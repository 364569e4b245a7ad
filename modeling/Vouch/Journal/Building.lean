import Vouch.Graph.Build
import Vouch.Journal.Entry

namespace Vouch

/-- The texts in an item that were taken for points in time and could not be read. -/
def Item.journal (item : Item) : List Entry :=
  item.unreadTimes.map unreadEntry
where
  unreadEntry (text : String) : Entry :=
    ⟨.debug, .credential, "Unparseable timestamp " ++ Text.quoted text ++ " ignored."⟩

/-- What reading one point in time leaves behind. -/
def Sighting.journal (s : Sighting) : List Entry :=
  (Sighting.unread [s]).map Item.journal.unreadEntry

namespace Store

/-- The entries of a file that are no objects, each with its place. They end where reading is
interrupted. -/
def skippedEntries (path : String) (place : Nat) : List Datum → List Entry
  | [] => []
  | entry :: entries =>
    match Record.ofDatum entry with
    | .ok _ => skippedEntries path (place + 1) entries
    | .error (.interrupted _) => []
    | .error (.malformed cause) =>
      ⟨.warning, .file,
        "Skipping entry " ++ toString place ++ " in " ++ path ++ ": " ++ cause.message⟩ ::
        skippedEntries path (place + 1) entries

/-- What listing a store leaves behind. -/
def journal : Store → List Entry
  | file path state =>
    match state.entries path with
    | .error _ => []
    | .ok entries =>
      skippedEntries path 0 entries ++
        match recordsOf entries with
        | .error _ => []
        | .ok records =>
          [⟨.debug, .file, "Loaded " ++ toString records.length ++ " credential records from " ++
            path ++ "."⟩]
  | _ => []

end Store

/-- What decoding items leaves behind. It ends where decoding is interrupted. -/
def siftJournal : List Item → List Entry
  | [] => []
  | item :: items =>
    item.journal ++
      match item.decode with
      | .error (.interrupted _) => []
      | .error (.malformed cause) =>
        ⟨.warning, .building, "Skipping malformed credential: " ++ cause.message⟩ ::
          siftJournal items
      | .ok _ => siftJournal items

/-- The credentials that were passed over, since one like them was there. -/
def duplicates (seen : List (String × String × String)) : List Credential → List Entry
  | [] => []
  | c :: cs =>
    if c.key ∈ seen then
      ⟨.debug, .building, "Duplicate credential " ++ c.id ++ " (" ++ c.issuer ++ " -> " ++
        c.subject ++ ") ignored."⟩ :: duplicates seen cs
    else duplicates (c.key :: seen) cs

namespace Graph

/-- The finished graph in numbers. The edges were counted as credentials were taken in. -/
def builtEntry (g : Graph) (edgeCount itemCount : Nat) : Entry :=
  ⟨.info, .building, "Trust graph built: " ++ toString g.nodes.length ++ " nodes, " ++
    toString edgeCount ++ " edges (" ++ toString g.reciprocalCount ++
    " bidirectional), " ++ toString itemCount ++ " credentials read, " ++
    toString g.skipped.length ++ " skipped."⟩

/-- What making a graph of items leaves behind. -/
def itemsJournal (naming : Naming) (root : String) (now : Reading) (items : List Item) :
    List Entry :=
  siftJournal items ++
    match sift items with
    | .error _ => []
    | .ok sifted =>
      duplicates [] (Credential.chronicle sifted.credentials) ++
        match ofItems naming root now items, grownCounting naming root sifted.credentials with
        | .ok g, .ok (_, edgeCount) => [g.builtEntry edgeCount items.length]
        | _, _ => []

/-- What building a graph leaves behind. -/
def buildJournal (naming : Naming) (root : String) (now : Reading) (store : Store) :
    List Entry :=
  if root = "" then []
  else
    store.journal ++
      match store.list with
      | .error fault =>
        if fault.isReported then
          [⟨.error, .building, "Credential store unavailable; trust graph build aborted."⟩]
        else []
      | .ok items => itemsJournal naming root now items

/-- What cutting out the surroundings of an identity leaves behind. -/
def aroundJournal (g : Graph) (naming : Naming) (id : String) (depth : Int) : List Entry :=
  if depth < 0 then []
  else
    let part := g.around naming id depth.toNat
    (if g.hasNode id then []
      else [⟨.info, .neighborhood,
        "Neighborhood of unknown identity '" ++ id ++ "': bare node only."⟩]) ++
    [⟨.debug, .neighborhood, "Neighborhood of '" ++ id ++ "' (depth=" ++ toString depth ++ "): " ++
      toString part.nodes.length ++ " nodes, " ++ toString part.edges.length ++ " edges."⟩]

/-- What building a graph and cutting out a part of it leaves behind. -/
def buildAroundJournal (naming : Naming) (root : String) (now : Reading) (store : Store)
    (id : String) (depth : Int) : List Entry :=
  if depth < 0 then []
  else
    buildJournal naming root now store ++
      match build naming root now store with
      | .error _ => []
      | .ok g => g.aroundJournal naming id depth

end Graph

end Vouch
