import Almanac.Data.Entries
import Almanac.Holiday.Definition
import Almanac.Holiday.Key

/-!
# Catalogs of holidays

A catalog holds definitions under the keys of their names, in the order in which the keys came. A
policy says what happens when two different definitions have one key: the later one replaces the
earlier one, both are kept and the later one gets a numbered key, or the catalog is refused.
Holidays whose names have the empty key are left out.
-/

namespace Almanac.Holiday

open Almanac.Text Almanac.Data

/-- What happens when two different definitions have one key. -/
inductive CollisionPolicy where
  /-- The later definition replaces the earlier one. -/
  | overwrite
  /-- The later definition gets a numbered key. -/
  | suffix
  /-- The catalog is refused. -/
  | reject
deriving DecidableEq, Repr

namespace CollisionPolicy

def name : CollisionPolicy → Text
  | overwrite => "overwrite"
  | suffix => "suffix"
  | reject => "reject"

def ofName? (name : Text) : Option CollisionPolicy :=
  [overwrite, suffix, reject].find? fun policy => policy.name = name

end CollisionPolicy

/-- Definitions under their keys, in order. -/
abbrev Catalog := Entries Text Definition

namespace Catalog

/-- Is the key free for the definition: not in use, or in use for an equal definition? -/
def isFree (catalog : Catalog) (definition : Definition) (key : Text) : Bool :=
  match catalog.get? key with
  | none => true
  | some known => known = definition

/-- The first numbered key from the given number on that is free for the definition. Of more
numbers than the catalog has entries one is free, so the search gives up only beyond those. -/
def freeKeyFrom (catalog : Catalog) (key : Text) (definition : Definition) :
    (tries : Nat) → (number : Nat) → Text
  | 0, number => Key.numbered key number
  | tries + 1, number =>
      if catalog.isFree definition (Key.numbered key number) then Key.numbered key number
      else freeKeyFrom catalog key definition tries (number + 1)

/-- The first numbered key, beginning with the second holiday, that is free for the definition. -/
def freeKey (catalog : Catalog) (key : Text) (definition : Definition) : Text :=
  freeKeyFrom catalog key definition catalog.length 2

/-- Why announcements make no catalog. -/
inductive Fault where
  | number (fault : NumberFault)
  /-- Two different definitions have this key. -/
  | collision (key : Text)
deriving DecidableEq, Repr

/-- A catalog in the making, with the keys that collided. -/
structure Draft where
  catalog : Catalog
  collisions : List Text
deriving DecidableEq, Repr

/-- The draft with one more definition under the key of its name. A refusal comes with the keys
that collided. -/
def Draft.add (policy : CollisionPolicy) (draft : Draft) (definition : Definition) :
    Except (Fault × List Text) Draft :=
  let key := Key.ofName definition.name
  if key.isEmpty then .ok draft
  else if draft.catalog.isFree definition key then
    .ok { draft with catalog := draft.catalog.put key definition }
  else
    let collisions := draft.collisions ++ [key]
    match policy with
    | .reject => .error (.collision key, collisions)
    | .overwrite => .ok ⟨draft.catalog.put key definition, collisions⟩
    | .suffix =>
        .ok ⟨draft.catalog.put (draft.catalog.freeKey key definition) definition, collisions⟩

def Draft.announce (policy : CollisionPolicy) (category : Text) (draft : Draft)
    (a : Announcement) : Except (Fault × List Text) Draft :=
  match Definition.ofAnnouncement category a with
  | .error e => .error (.number e, draft.collisions)
  | .ok definition => draft.add policy definition

def draft (policy : CollisionPolicy) (category : Text) (announced : List Announcement) :
    Except (Fault × List Text) Draft :=
  announced.foldlM (Draft.announce policy category) ⟨[], []⟩

/-- The category of holidays unless another one is asked for. -/
def defaultCategory : Text := "public"

def ofAnnouncements (policy : CollisionPolicy) (announced : List Announcement) :
    Except Fault Catalog :=
  match draft policy defaultCategory announced with
  | .error (fault, _) => .error fault
  | .ok draft => .ok draft.catalog

end Catalog
end Almanac.Holiday
