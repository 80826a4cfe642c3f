import QuickjsBackend.Foundation.Run
import QuickjsBackend.Foundation.Span
import QuickjsBackend.Foundation.Slots
import QuickjsBackend.Foundation.SortedMap
import QuickjsBackend.Foundation.OrderedMap
import QuickjsBackend.Foundation.Program
import QuickjsBackend.Foundation.Faulting
import QuickjsBackend.Foundation.Acyclic
import QuickjsBackend.Foundation.Walk
import QuickjsBackend.Foundation.Bracket
import QuickjsBackend.Foundation.Double
import QuickjsBackend.Foundation.References
import QuickjsBackend.Foundation.Chained
import QuickjsBackend.Engine.Value
import QuickjsBackend.Engine.ClassId
import QuickjsBackend.Engine.Layout
import QuickjsBackend.Engine.Runtime
import QuickjsBackend.Engine.Finalizer
import QuickjsBackend.Engine.Object
import QuickjsBackend.Engine.Collector
import QuickjsBackend.Engine.Counting
import QuickjsBackend.Engine.TrialDeletion
import QuickjsBackend.Engine.Freeing
import QuickjsBackend.Engine.Cascade
import QuickjsBackend.Engine.Cycles
import QuickjsBackend.Engine.Reclamation
import QuickjsBackend.Handle.Isolate
import QuickjsBackend.Handle.Transition
import QuickjsBackend.Handle.Stack
import QuickjsBackend.Handle.Accounting
import QuickjsBackend.Handle.Invariant
import QuickjsBackend.Handle.Liveness
import QuickjsBackend.Handle.Escape
import QuickjsBackend.Handle.Conservation
import QuickjsBackend.Handle.Lifetime
import QuickjsBackend.Scope.Frame
import QuickjsBackend.Scope.Nesting
import QuickjsBackend.Scope.Restoration
import QuickjsBackend.Scope.Caught
import QuickjsBackend.Scope.Reporting
import QuickjsBackend.Scope.Entry
import QuickjsBackend.Callback.Wrapper
import QuickjsBackend.Callback.Arguments
import QuickjsBackend.Callback.Conservation
import QuickjsBackend.Callback.CallTree
import QuickjsBackend.Callback.Effect
import QuickjsBackend.Callback.Delivery
import QuickjsBackend.Persistent.Global
import QuickjsBackend.Persistent.Transition
import QuickjsBackend.Persistent.Ownership
import QuickjsBackend.Persistent.Registration
import QuickjsBackend.Persistent.Weak
import QuickjsBackend.Persistent.Dangling
import QuickjsBackend.Persistent.Liveness
import QuickjsBackend.Template.Template
import QuickjsBackend.Template.Instantiation
import QuickjsBackend.Template.Ownership
import QuickjsBackend.Template.Stored
import QuickjsBackend.Template.Data
import QuickjsBackend.Template.Transition
import QuickjsBackend.Template.Contexts
import QuickjsBackend.Template.Cache
import QuickjsBackend.Template.CachedFunction
import QuickjsBackend.Template.GetFunction
import QuickjsBackend.Template.Termination
import QuickjsBackend.Template.Growth
import QuickjsBackend.Template.Shape
import QuickjsBackend.Template.Constructor
import QuickjsBackend.Template.Prototype
import QuickjsBackend.Template.Redefinition
import QuickjsBackend.Template.Linking
import QuickjsBackend.Template.Separation
import QuickjsBackend.Template.Sharing
import QuickjsBackend.Template.Inheritance
import QuickjsBackend.Template.Declarations
import QuickjsBackend.Callback.Invocation
import QuickjsBackend.Promise.Machine
import QuickjsBackend.Promise.Settlement
import QuickjsBackend.Promise.Reaction
import QuickjsBackend.Promise.Tracker
import QuickjsBackend.Access.Operations
import QuickjsBackend.Access.Faithful
import QuickjsBackend.Access.Representation
import QuickjsBackend.Access.Conversion
import QuickjsBackend.Access.Key
import QuickjsBackend.Access.Date
import QuickjsBackend.Access.BigInt
import QuickjsBackend.Access.InternalFields
import QuickjsBackend.Access.View
import QuickjsBackend.Access.ExplicitContext
import QuickjsBackend.Shape.Machine
import QuickjsBackend.Shape.Table
import QuickjsBackend.Shape.Sharing
import QuickjsBackend.Shape.Update
import QuickjsBackend.Shape.Lookup
import QuickjsBackend.Shape.Compaction
import QuickjsBackend.Shape.Refinement
import QuickjsBackend.Collection.Key
import QuickjsBackend.Collection.Map
import QuickjsBackend.Collection.Table
import QuickjsBackend.Collection.Insertion
import QuickjsBackend.Collection.Agreement
import QuickjsBackend.Collection.Iterator
import QuickjsBackend.Collection.Reentry
import QuickjsBackend.Collection.Integrity
import QuickjsBackend.Collection.Store
import QuickjsBackend.Text.StringBuffer
import QuickjsBackend.Text.Utf8
import QuickjsBackend.Text.RoundTrip
import QuickjsBackend.Text.Script
