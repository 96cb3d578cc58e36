import PlaneSketch.Document.Decode
import PlaneSketch.Document.Encode
import PlaneSketch.Document.Load
import PlaneSketch.Document.Save
import PlaneSketch.Geometry.Circle
import PlaneSketch.Geometry.Regression
import PlaneSketch.Json.Value
import PlaneSketch.Relation.Build
import PlaneSketch.Session.Request
import PlaneSketch.Session.Server
import PlaneSketch.Sketch.Select
import PlaneSketch.Sketch.Solve
import PlaneSketch.SocketAddress
import PlaneSketch.Proofs.Sketch
import PlaneSketch.Proofs.Document.Load
import PlaneSketch.Proofs.Document.Reload
import PlaneSketch.Store.Forest
import PlaneSketch.Store.History
import PlaneSketch.Proofs.Store.Labels
import PlaneSketch.Proofs.Store.Partition
import PlaneSketch.Proofs.Store.Forest
import PlaneSketch.Proofs.Store.History
import PlaneSketch.Proofs.Binary64.Bits
import PlaneSketch.Proofs.Binary64.Nearest
import PlaneSketch.Proofs.Numeral
import PlaneSketch.Proofs.Numeral.Shortest
import PlaneSketch.Proofs.Numeral.Layout
import PlaneSketch.Proofs.Json.Token
import PlaneSketch.Proofs.Json.Tree
import PlaneSketch.Proofs.EntityId
import PlaneSketch.Proofs.Json.Decode
import PlaneSketch.Proofs.Document.Encode
import PlaneSketch.Proofs.Document.Decode
import PlaneSketch.Proofs.Solver.Config
import PlaneSketch.Proofs.Document.Normal
import PlaneSketch.Proofs.Document.Settled
import PlaneSketch.Proofs.Sketch.Solve
import PlaneSketch.Proofs.Session.Command
import PlaneSketch.Proofs.Session.Server
import PlaneSketch.Proofs.Session.Refusal
import PlaneSketch.Proofs.Session.Request
import PlaneSketch.Proofs.Session.Edit
import PlaneSketch.Proofs.Relation.Midpoint
import PlaneSketch.Proofs.Sketch.Report
import PlaneSketch.Proofs.Solver.Numbers
import PlaneSketch.Proofs.Document.Tidy
import PlaneSketch.Proofs.Solver.Instalments
import PlaneSketch.Proofs.Session.Rest
import PlaneSketch.Proofs.Session.Turns
import PlaneSketch.Proofs.Solver.Totals
import PlaneSketch.Proofs.Solver.Independent
import PlaneSketch.Proofs.Sketch.Held
import PlaneSketch.Proofs.Store.Copy
import PlaneSketch.Proofs.Store.Translate
import PlaneSketch.Proofs.Geometry.Line
import PlaneSketch.Proofs.Geometry.Regression
import PlaneSketch.Proofs.Relation.Satisfied
import PlaneSketch.Proofs.Store.Apply
import PlaneSketch.Proofs.Relation.Correction
import PlaneSketch.Proofs.Relation.Tangent
import PlaneSketch.Proofs.Relation.Colinear
import PlaneSketch.Proofs.Relation.EqualValues
import PlaneSketch.Proofs.Relation.EqualLength
import PlaneSketch.Proofs.Sketch.Radii
import PlaneSketch.Proofs.Relation.Stall
import PlaneSketch.Proofs.Geometry.Fit
import PlaneSketch.Proofs.Geometry.Meeting
import PlaneSketch.Proofs.Geometry.Extent
import PlaneSketch.Proofs.Sketch.Select
import PlaneSketch.Proofs.Sketch.Pick
import PlaneSketch.Proofs.Sketch.Contract
import PlaneSketch.Proofs.Relation.Drawn
import PlaneSketch.Proofs.Session.Turns
