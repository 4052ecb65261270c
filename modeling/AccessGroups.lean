import AccessGroups.Deploy.Service
import AccessGroups.Log.Session
import AccessGroups.Proofs.Decimal.Whole
import AccessGroups.Schema.Model
import AccessGroups.Proofs.Value.Keys
import AccessGroups.Proofs.Template.Reading
import AccessGroups.Proofs.Group.Emission
import AccessGroups.Proofs.Group.Request
import AccessGroups.Proofs.Group.Chain
import AccessGroups.Proofs.Group.Content
import AccessGroups.Proofs.Group.Grants
import AccessGroups.Proofs.Identifier.Decoding
import AccessGroups.Proofs.Group.Independence
import AccessGroups.Proofs.Group.Truncation
import AccessGroups.Proofs.Group.Deduplication
import AccessGroups.Proofs.Schema.Checked
import AccessGroups.Proofs.Deploy.Course
import AccessGroups.Proofs.Deploy.Frame
import AccessGroups.Proofs.Deploy.History
import AccessGroups.Proofs.Schema.Directive
import AccessGroups.Proofs.Deploy.Roles
import AccessGroups.Proofs.Group.Refusal
import AccessGroups.Proofs.Group.Splitting
import AccessGroups.Proofs.Group.Repetition
import AccessGroups.Proofs.Group.Enrolment
import AccessGroups.Proofs.Deploy.Joining
import AccessGroups.Proofs.Deploy.Redeployment
import AccessGroups.Proofs.Schema.Accepted
import AccessGroups.Proofs.Deploy.Failures
import AccessGroups.Proofs.Group.Separation
import AccessGroups.Proofs.Group.References
import AccessGroups.Proofs.Group.Inertness
import AccessGroups.Proofs.Group.Directives
import AccessGroups.Proofs.Group.Roles
import AccessGroups.Proofs.Group.Reordering
import AccessGroups.Proofs.Group.Correspondence
import AccessGroups.Proofs.Json.Reader
import AccessGroups.Proofs.Json.RoundTrip
import AccessGroups.Proofs.Value.Overlay
import AccessGroups.Proofs.Log.Fields
import AccessGroups.Proofs.Log.Encoding
import AccessGroups.Proofs.Log.OwnFields
import AccessGroups.Proofs.Log.SharedExtras
import AccessGroups.Proofs.Schema.Rereading
import AccessGroups.Proofs.Schema.Inlining
import AccessGroups.Proofs.Log.Setup
import AccessGroups.Proofs.Identifier.Normalization
import AccessGroups.Proofs.Identifier.Leaves
import AccessGroups.Proofs.Text.Spacing
import AccessGroups.Proofs.Log.Preview
import AccessGroups.Proofs.Group.Account
import AccessGroups.Proofs.Group.Audit
import AccessGroups.Proofs.Identifier.LogicalName
import AccessGroups.Proofs.Group.LogicalNames
import AccessGroups.Proofs.Log.Template
import AccessGroups.Proofs.Decimal.Rounded
