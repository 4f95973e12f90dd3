import SimSetup.Fault
import SimSetup.Main
import SimSetup.Proofs.Boundary.Roles
import SimSetup.Proofs.Boundary.Staleness
import SimSetup.Proofs.Boundary.Winding
import SimSetup.Proofs.Command.Isolation
import SimSetup.Proofs.Deployment.Delivery
import SimSetup.Proofs.Geometry.Motion
import SimSetup.Proofs.Template.Scan
import SimSetup.Proofs.Boundary.Independence
import SimSetup.Proofs.Command.Precedence
import SimSetup.Proofs.Template.Segment
import SimSetup.Proofs.Template.Repair
import SimSetup.Proofs.Deployment.Dependence
import SimSetup.Proofs.Template.Report
import SimSetup.Proofs.Snapshot.Pressure
import SimSetup.Proofs.Boundary.Dependencies
import SimSetup.Proofs.Boundary.Description
import SimSetup.Proofs.Boundary.Orientation
import SimSetup.Proofs.Template.Lexing
import SimSetup.Proofs.Boundary.Flat
import SimSetup.Proofs.Text.Offset
import SimSetup.Proofs.Geometry.Rigid
