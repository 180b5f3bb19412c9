import ProposalReview.Decision.RecordReader
import ProposalReview.Filing.World
import ProposalReview.Main
import ProposalReview.Proofs.Advice
import ProposalReview.Proofs.AuditTrail
import ProposalReview.Proofs.Bounds
import ProposalReview.Proofs.Chronology
import ProposalReview.Proofs.Containment
import ProposalReview.Proofs.Deadline
import ProposalReview.Proofs.Disclosure
import ProposalReview.Proofs.DryRun
import ProposalReview.Proofs.ExitStatus
import ProposalReview.Proofs.History
import ProposalReview.Proofs.IncidentText.Decoding
import ProposalReview.Proofs.IncidentText.Reader
import ProposalReview.Proofs.Independence
import ProposalReview.Proofs.Influence
import ProposalReview.Proofs.NameRule
import ProposalReview.Proofs.Overflow
import ProposalReview.Proofs.Override
import ProposalReview.Proofs.Preview
import ProposalReview.Proofs.Promotion
import ProposalReview.Proofs.Proposal.Append
import ProposalReview.Proofs.Proposal.Spelling
import ProposalReview.Proofs.Ratios
import ProposalReview.Proofs.Records
import ProposalReview.Proofs.Refusal
import ProposalReview.Proofs.Rerun
import ProposalReview.Proofs.Resolution
import ProposalReview.Proofs.Scan
import ProposalReview.Proofs.Seeding
import ProposalReview.Proofs.Strictness
import ProposalReview.Proofs.Tally
import ProposalReview.Proofs.Verdict
