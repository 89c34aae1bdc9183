import Introspect.Config.Document
import Introspect.Config.Environment
import Introspect.Describe.Models
import Introspect.Describe.Values
import Introspect.Items.Declare
import Introspect.Models.Walk
import Introspect.Values.Data
import Introspect.Proofs.Classes.Answers
import Introspect.Proofs.Models.Concrete
import Introspect.Proofs.Models.Identity
import Introspect.Proofs.Models.FailedLookup
import Introspect.Proofs.Values.Delivery
import Introspect.Proofs.Dict
import Introspect.Proofs.Models.Entries
import Introspect.Proofs.Models.FailedWrite
import Introspect.Proofs.Models.GrowthLimit
import Introspect.Proofs.Models.AccessorNames
import Introspect.Proofs.Models.RecordCopy
import Introspect.Proofs.Classes.Dispatch
import Introspect.Proofs.Classes.Composition
import Introspect.Proofs.Models.Termination
import Introspect.Proofs.Models.Description
import Introspect.Proofs.Models.VisitOrders
import Introspect.Proofs.Classes.Parameterizations
import Introspect.Proofs.Classes.OpenTypes
import Introspect.Proofs.Models.Inheritance
import Introspect.Proofs.Classes.Preorder
import Introspect.Proofs.Models.FieldWrites
import Introspect.Proofs.Models.FreshObjects
import Introspect.Proofs.Models.FinalFields
import Introspect.Proofs.Classes.AssignabilityOrder
import Introspect.Proofs.Models.ArrayClasses
import Introspect.Proofs.Models.Synthetic
import Introspect.Proofs.Models.InstanceSlots
import Introspect.Proofs.Values.Data
import Introspect.Proofs.Items.Declare
import Introspect.Proofs.Models.ClosedClasses
