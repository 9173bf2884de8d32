import SignetApp.Contacts.Types

/-!
# List membership

`contacts-v2-membership.ts`: which of the owner's identity lists a contact is in. Removing a
membership keeps it as history; a record whose last membership is unlinked is removed.
-/

namespace SignetApp.Contacts

open SignetApp.Js

/-- The memberships of a record, an absent field reading as none. -/
def ContactRecord.memberships (record : ContactRecord) : List ContactListMembership :=
  record.listMemberships.getD []

def ContactListMembership.activeFor (m : ContactListMembership) (owner : Hex64) : Bool :=
  m.ownerIdentityPubkey = owner && m.removedAt.isNone

/-- Old records have unknown list ownership, never implicit access to every list. -/
def contactBelongsToList (record : ContactRecord) (ownerIdentityPubkey : Hex64) : Bool :=
  record.memberships.any fun m => m.activeFor ownerIdentityPubkey

def linkContactList (record : ContactRecord) (ownerIdentityPubkey : Hex64) (at_ : Timestamp) :
    ContactRecord :=
  if contactBelongsToList record ownerIdentityPubkey then record
  else
    { record with
      listMemberships := some
        (record.memberships.filter (fun m => m.ownerIdentityPubkey ≠ ownerIdentityPubkey)
          ++ [{ ownerIdentityPubkey, addedAt := at_, removedAt := none }])
      primaryIdentityPubkey := some (record.primaryIdentityPubkey.getD ownerIdentityPubkey)
      updatedAt := at_
      createdAt := min record.createdAt at_ }

/-- The comparison `oldest` sorts by: age, then owner. -/
def olderMembership (a b : ContactListMembership) : Prop :=
  a.addedAt < b.addedAt ∨ (a.addedAt = b.addedAt ∧ a.ownerIdentityPubkey ≤ b.ownerIdentityPubkey)

instance : DecidableRel olderMembership := fun _ _ => inferInstanceAs (Decidable (_ ∨ (_ ∧ _)))

/-- The owner of the oldest active membership. -/
def oldest (memberships : List ContactListMembership) : Option Hex64 :=
  (((memberships.filter fun m => m.removedAt.isNone).insertionSort olderMembership).head?).map
    ContactListMembership.ownerIdentityPubkey

/-- A membership ended at a time. -/
def ContactListMembership.removed (m : ContactListMembership) (at_ : Timestamp) :
    ContactListMembership :=
  { m with removedAt := some at_ }

def unlinkContactList (record : ContactRecord) (ownerIdentityPubkey : Hex64) (at_ : Timestamp) :
    ContactRecord :=
  if contactBelongsToList record ownerIdentityPubkey then
    let listMemberships := record.memberships.map fun m =>
      if m.ownerIdentityPubkey = ownerIdentityPubkey then m.removed at_ else m
    let primaryIdentityPubkey :=
      if record.primaryIdentityPubkey = some ownerIdentityPubkey then oldest listMemberships
      else record.primaryIdentityPubkey
    let unlinked := { record with
      listMemberships := some listMemberships, primaryIdentityPubkey, updatedAt := at_ }
    if primaryIdentityPubkey = none then
      { unlinked with lifecycle := .removed, removedAt := some at_ }
    else unlinked
  else record

/-- Removing everywhere preserves both block facts and past membership. -/
def removeContactLists (record : ContactRecord) (at_ : Timestamp) : ContactRecord :=
  match record.listMemberships with
  | none => record
  | some memberships =>
    { record with
      primaryIdentityPubkey := none
      listMemberships := some
        (memberships.map fun m => if m.removedAt.isNone then m.removed at_ else m) }

end SignetApp.Contacts
