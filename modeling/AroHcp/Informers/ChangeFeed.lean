import AroHcp.Lib.GoFmt
import AroHcp.Lib.GoStrings
import Mathlib.Logic.Function.Basic
import Mathlib.Logic.Relation

/-! The list and watch of documents over the change feed: `List` takes a snapshot and starts the map
of delivered versions, and every feed range is read in batches whose items are compared with that
map. -/

namespace Informers

open GoFmt GoStrings

/-- The fields of a `TypedDocument` that the watcher reads. -/
structure TypedDocument where
  id : String
  resourceType : String
  resourceID : Option String
  deletionTimestamp : Option Int

inductive EventType where
  | added
  | modified
  | deleted
deriving DecidableEq, Repr

structure Event (Obj : Type) where
  type : EventType
  object : Obj
deriving DecidableEq

/-- A `ChangeFeedWatcher` for items of the feed and objects of the internal type: the types and the
filter it was made with, and the decoding of items. -/
structure Watcher (Item Obj : Type) where
  desiredResourceTypes : List String
  shouldDeliverItemFn : Option (Obj → Bool)
  /-- `json.Unmarshal` into a `TypedDocument` -/
  unmarshalTyped : Item → Except String TypedDocument
  /-- `json.Unmarshal` into the Cosmos type and `CosmosToInternal` -/
  toInternal : Item → Except String Obj
  getResourceID : Obj → String
  getInstanceVersion : Obj → Int

/-- The map of the versions delivered last. -/
abbrev Versions := String → Option Int

variable {Item Obj : Type} (w : Watcher Item Obj)

namespace Watcher

def matchesDesiredType (doc : TypedDocument) : Bool :=
  w.desiredResourceTypes.any (equalFold doc.resourceType)

def canonicalResourceID (obj : Obj) : String :=
  toLower (w.getResourceID obj)

def shouldDeliver (obj : Obj) : Bool :=
  w.shouldDeliverItemFn.all (· obj)

/-- `processItem` from the comparison of versions on. -/
def deliver (versions : Versions) (doc : TypedDocument) (obj : Obj) :
    Versions × Option (Event Obj) :=
  let key := w.canonicalResourceID obj
  let version := w.getInstanceVersion obj
  if (versions key).any (version ≤ ·) then (versions, none)
  else if doc.deletionTimestamp.isSome || !w.shouldDeliver obj then
    if (versions key).isSome then (Function.update versions key none, some ⟨.deleted, obj⟩)
    else (versions, none)
  else
    (Function.update versions key (some version),
      some ⟨if (versions key).isSome then .modified else .added, obj⟩)

def processItem (versions : Versions) (item : Item) :
    Except String (Versions × Option (Event Obj)) :=
  match w.unmarshalTyped item with
  | .error err => .error err
  | .ok doc =>
    if !w.matchesDesiredType doc then .ok (versions, none)
    -- a malformed document, reported and skipped
    else if doc.resourceID.isNone then .ok (versions, none)
    else match w.toInternal item with
      | .error err => .error err
      | .ok obj => .ok (w.deliver versions doc obj)

/-- The map that `List` starts the delivery with. -/
def listedVersions (items : List Obj) : Versions :=
  items.foldl (fun versions obj =>
    Function.update versions (w.canonicalResourceID obj) (some (w.getInstanceVersion obj)))
      fun _ => none

end Watcher

/-! ## The documents in the database -/

/-- A state of a document: the truth about it, and its bytes. -/
structure Document (Item : Type) where
  key : String
  version : Int
  deleted : Bool
  item : Item
deriving DecidableEq

/-- The last state of a document. -/
def current (docs : List (Document Item)) (key : String) : Option (Document Item) :=
  docs.reverse.find? (·.key = key)

/-- All states in the order they were written. -/
structure History (Item : Type) where
  writes : List (Document Item)
  /-- Versions grow, and nothing is written after a deletion. -/
  increasing : writes.Pairwise fun a b => a.key = b.key → a.version < b.version ∧ a.deleted = false

/-- How the watched documents are stored: which IDs are of the watched types, and which documents
the query of the lister selects among the live ones. -/
structure Storage (w : Watcher Item Obj) where
  watched : String → Bool
  query : Item → Bool

variable {w}

namespace Storage

variable (st : Storage w)

def live (d : Document Item) : Bool :=
  st.watched d.key && !d.deleted && st.query d.item

/-- The bytes of a document say what is true of it, as far as they can be decoded. -/
structure Faithful (d : Document Item) : Prop where
  typed : ∀ doc, w.unmarshalTyped d.item = .ok doc →
    w.matchesDesiredType doc = st.watched d.key ∧ doc.resourceID.isSome = true ∧
      doc.deletionTimestamp.isSome = d.deleted
  internal : ∀ obj, w.toInternal d.item = .ok obj →
    w.canonicalResourceID obj = d.key ∧ w.getInstanceVersion obj = d.version ∧
      w.shouldDeliver obj = st.query d.item

def listedDocuments (docs : List (Document Item)) : List (Document Item) :=
  docs.filter fun d => st.live d && (current docs d.key).any (·.version = d.version)

/-- `List` on a snapshot: it fails if one of the documents cannot be decoded. -/
def list (docs : List (Document Item)) : Except String (List Obj) :=
  (st.listedDocuments docs).mapM fun d => w.toInternal d.item

def liveObject (docs : List (Document Item)) (key : String) : Option Obj :=
  (current docs key).bind fun d => if st.live d then (w.toInternal d.item).toOption else none

def liveVersion (docs : List (Document Item)) (key : String) : Option Int :=
  (current docs key).bind fun d => if st.live d then some d.version else none

end Storage

/-! ## The watch -/

/-- The feed ranges with the batch that each one works on, what has been delivered, and the items
processed without an error. -/
structure State (Range Item Obj : Type) where
  versions : Versions
  events : List (Event Obj)
  batch : Range → Option (List (Document Item) × String)
  continuationTokens : Range → Option String
  stopped : Bool
  processed : List (Document Item)

variable {Range : Type} [DecidableEq Range]

/-- Nothing comes back that is older than a processed state of its ID that is not live. Of a live
state the map still has the version; of the others it has nothing left to compare with. -/
def Storage.InOrder (st : Storage w) (s : State Range Item Obj) (d : Document Item) : Prop :=
  ∀ p ∈ s.processed, p.key = d.key → st.live p = false → p.version ≤ d.version

instance (st : Storage w) (s : State Range Item Obj) (d : Document Item) :
    Decidable (st.InOrder s d) :=
  inferInstanceAs (Decidable (∀ p ∈ s.processed, _))

variable (w)

/-- The steps of the readers of the feed ranges after `List` has begun the delivery, for feeds that
deliver in some order. Each ID is in one range, so that the items of an ID are processed one after
the other. -/
inductive Step (order : State Range Item Obj → Document Item → Prop) (h : History Item) :
    State Range Item Obj → State Range Item Obj → Prop
  /-- A batch of document states arrives, again or for the first time. -/
  | read {s : State Range Item Obj} {r : Range} (items : List (Document Item)) (next : String)
      (hidle : s.batch r = none) (hitems : ∀ d ∈ items, d ∈ h.writes) :
      Step order h s { s with batch := Function.update s.batch r (some (items, next)) }
  | process {s : State Range Item Obj} {r : Range} {d : Document Item} {rest : List (Document Item)}
      {next : String} {versions : Versions} {event : Option (Event Obj)}
      (hbatch : s.batch r = some (d :: rest, next)) (horder : order s d)
      (hok : w.processItem s.versions d.item = .ok (versions, event)) :
      Step order h s { s with
        versions := versions
        events := s.events ++ event.toList
        batch := Function.update s.batch r (some (rest, next))
        processed := s.processed ++ [d] }
  /-- An error ends the batch, and its token is not recorded. -/
  | fail {s : State Range Item Obj} {r : Range} {d : Document Item} {rest : List (Document Item)}
      {next err : String} (hbatch : s.batch r = some (d :: rest, next))
      (herror : w.processItem s.versions d.item = .error err) :
      Step order h s { s with batch := Function.update s.batch r none }
  | record {s : State Range Item Obj} {r : Range} {next : String}
      (hbatch : s.batch r = some ([], next)) :
      Step order h s { s with
        batch := Function.update s.batch r none
        continuationTokens := Function.update s.continuationTokens r (some next) }
  | stop {s : State Range Item Obj} : Step order h s { s with stopped := true }
  /-- Once stopped, an item may be left before it is processed. -/
  | leave {s : State Range Item Obj} {r : Range} {d : Document Item} {rest : List (Document Item)}
      {next : String} (hstopped : s.stopped = true) (hbatch : s.batch r = some (d :: rest, next)) :
      Step order h s { s with batch := Function.update s.batch r (some (rest, next)) }
  /-- Once stopped, an item may be processed without its event being sent. -/
  | drop {s : State Range Item Obj} {r : Range} {d : Document Item} {rest : List (Document Item)}
      {next : String} {versions : Versions} {event : Option (Event Obj)} (hstopped : s.stopped = true)
      (hbatch : s.batch r = some (d :: rest, next)) (horder : order s d)
      (hok : w.processItem s.versions d.item = .ok (versions, event)) :
      Step order h s { s with
        versions := versions
        batch := Function.update s.batch r (some (rest, next))
        processed := s.processed ++ [d] }

def begin (listed : List Obj) : State Range Item Obj where
  versions := w.listedVersions listed
  events := []
  batch _ := none
  continuationTokens _ := none
  stopped := false
  processed := []

/-! ## The reader -/

/-- What a reader holds after one more event. -/
def applyEvent (held : String → Option Obj) (e : Event Obj) : String → Option Obj :=
  Function.update held (w.canonicalResourceID e.object)
    (if e.type = .deleted then none else some e.object)

def replaced (listed : List Obj) : String → Option Obj :=
  listed.foldl (fun held obj => Function.update held (w.canonicalResourceID obj) (some obj))
    fun _ => none

/-- What a reader holds after the list and the events. -/
def replay (listed : List Obj) (events : List (Event Obj)) : String → Option Obj :=
  events.foldl (applyEvent w) (replaced w listed)

end Informers
