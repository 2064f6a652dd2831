import Roster.Main
import Roster.Proofs.Advertising
import Roster.Proofs.Allotment
import Roster.Proofs.Backoff
import Roster.Proofs.CommandLine.Simulate
import Roster.Proofs.Config.File
import Roster.Proofs.Healing.Round
import Roster.Proofs.Interleaving.Refinement
import Roster.Proofs.Issuing.Reuse
import Roster.Proofs.Issuing.Single
import Roster.Proofs.Keepalive
import Roster.Proofs.Numbering.Minimum
import Roster.Proofs.Ownership.Writes
import Roster.Proofs.Registering.Failure
import Roster.Proofs.Registry.Expiry
import Roster.Proofs.Registry.Failing
import Roster.Proofs.Retirement
import Roster.Proofs.Seniority
import Roster.Proofs.Settling.Uniqueness
import Roster.Proofs.Tracking.Handling
import Roster.Proofs.Tracking.Minting
import Roster.Proofs.UniqueId.Layout
