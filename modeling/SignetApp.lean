import SignetApp.AppPairings.NoReturn
import SignetApp.Apps.Disclosure
import SignetApp.Apps.Projection
import SignetApp.Apps.Reconciliation
import SignetApp.Bots.Allocation
import SignetApp.Bots.LiveConsent
import SignetApp.Bunker.AllowAlways
import SignetApp.Bunker.OnlyAnswers
import SignetApp.Bunker.QueueOrder
import SignetApp.Bunker.SpentOnce
import SignetApp.Child.GateSigns
import SignetApp.Child.OneAnswer
import SignetApp.Child.RateLimit
import SignetApp.Child.RulesConvergence
import SignetApp.Child.SeededGate
import SignetApp.ChildContacts.NeverWider
import SignetApp.ChildLink.PairedPhone
import SignetApp.ChildPhone.OneSlot
import SignetApp.Collections.Sweep
import SignetApp.Companion.Companions
import SignetApp.Contacts.Aliasing
import SignetApp.Contacts.ChildTier
import SignetApp.Contacts.Convergence
import SignetApp.Contacts.Locality
import SignetApp.Contacts.WellFormed
import SignetApp.Credentials.Convergence
import SignetApp.Family.ApprovedOnce
import SignetApp.Family.Ceiling
import SignetApp.Family.ChildCeiling
import SignetApp.Family.NothingLost
import SignetApp.Family.PushSettles
import SignetApp.Family.StrictestChoice
import SignetApp.Follows.Import
import SignetApp.Follows.ImportGuard
import SignetApp.Follows.KeepsContact
import SignetApp.Follows.Stamps
import SignetApp.Grants.Agreement
import SignetApp.Grants.Intersection
import SignetApp.Grants.NextOpening
import SignetApp.Js.Utf8
import SignetApp.Keep.Owners
import SignetApp.Keep.Reconcile
import SignetApp.Migration.NeverStrands
import SignetApp.Nearby.Sealed
import SignetApp.Nearby.Survivor
import SignetApp.Pairing.Lifecycle
import SignetApp.Pairing.Recovery
import SignetApp.Pairing.SignOnce
import SignetApp.PhoneApps.OneAnswer
import SignetApp.PhoneRevokes.Gone
import SignetApp.Pictures.Formats
import SignetApp.Professional.Rosters
import SignetApp.Professional.VerifyChain
import SignetApp.Sync.Projection
import SignetApp.Sync.ReadBack
import SignetApp.Vault.Envelope
