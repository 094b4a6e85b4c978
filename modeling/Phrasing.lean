import Phrasing.Main
import Phrasing.Proofs.Counts
import Phrasing.Proofs.Seams
import Phrasing.Proofs.Capped
import Phrasing.Proofs.Replies
import Phrasing.Proofs.Overwriting
import Phrasing.Proofs.Reported
import Phrasing.Proofs.Checks
import Phrasing.Proofs.Reading
import Phrasing.Proofs.Loading
import Phrasing.Proofs.Overlaying
import Phrasing.Proofs.Integers
import Phrasing.Proofs.RoundRobin
import Phrasing.Proofs.Insertion
import Phrasing.Proofs.Foreign
import Phrasing.Proofs.Locality
import Phrasing.Proofs.Content
import Phrasing.Proofs.Journaling
import Phrasing.Proofs.Omissions
import Phrasing.Proofs.Growth
import Phrasing.Proofs.Distinct
