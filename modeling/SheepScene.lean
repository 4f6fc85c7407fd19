import SheepScene.Diagnostics.Functions
import SheepScene.Diagnostics.Probe
import SheepScene.Main
import SheepScene.Sheep.Assembler
import SheepScene.Proofs.Machine.RunTriples
import SheepScene.Proofs.Machine.WaitBlocks
import SheepScene.Proofs.Machine.Boundaries
import SheepScene.Proofs.Machine.Renumbering
import SheepScene.Proofs.Machine.Evaluation
import SheepScene.Proofs.Machine.Slices
import SheepScene.Proofs.Sheep.Assembly
import SheepScene.Proofs.Sheep.Building
import SheepScene.Proofs.Sheep.Filling
import SheepScene.Proofs.Sheep.Labels
import SheepScene.Proofs.Sheep.Interning
import SheepScene.Proofs.Sheep.EntryLines
import SheepScene.Proofs.Sheep.ListedCode
import SheepScene.Proofs.Sheep.Decoding
import SheepScene.Proofs.Sheep.SavedScripts
import SheepScene.Proofs.Scene.Agreement
import SheepScene.Proofs.Scene.Keeping
import SheepScene.Proofs.Scene.Relinking
import SheepScene.Proofs.Scene.Tidy
import SheepScene.Proofs.Scene.WellFormed
import SheepScene.Proofs.Scene.Composition
import SheepScene.Proofs.Scene.Caching
import SheepScene.Proofs.Scene.Invalidation
import SheepScene.Proofs.Scene.Queries
import SheepScene.Proofs.Scene.Handles
import SheepScene.Proofs.Scene.Moves
import SheepScene.Proofs.Scene.Tending
import SheepScene.Proofs.Scene.Deactivation
import SheepScene.Proofs.Machine.Rounds
import SheepScene.Proofs.Machine.Isolation
import SheepScene.Proofs.Machine.Bookkeeping
import SheepScene.Proofs.Machine.ThreadStates
import SheepScene.Proofs.Machine.Variables
import SheepScene.Proofs.Machine.Nesting
import SheepScene.Proofs.Scene.Stages
import SheepScene.Proofs.Scene.Permanence
import SheepScene.Proofs.Scene.Changes
import SheepScene.Proofs.Scene.Reentrancy
import SheepScene.Proofs.Scene.Listing
import SheepScene.Proofs.Scene.Updates
import SheepScene.Proofs.Scene.Passes
import SheepScene.Proofs.Scene.Destruction
import SheepScene.Proofs.Scene.Listeners
import SheepScene.Proofs.Machine.Refinement
import SheepScene.Proofs.Scene.Watching
import SheepScene.Proofs.Scene.Dues
import SheepScene.Proofs.Scene.Switches
import SheepScene.Proofs.Scene.Withdrawal
import SheepScene.Proofs.Scene.Telling
import SheepScene.Proofs.Machine.Division
import SheepScene.Proofs.Machine.StackEffects
import SheepScene.Proofs.Machine.Comparisons
import SheepScene.Proofs.Geometry.Rationals
import SheepScene.Proofs.Scene.Moments
import SheepScene.Proofs.Scene.Serving
import SheepScene.Proofs.Scene.Traits
import SheepScene.Proofs.Scene.Arrival
import SheepScene.Proofs.Scene.Sending
import SheepScene.Proofs.Scene.Superseding
import SheepScene.Proofs.Scene.Motion
import SheepScene.Proofs.Scene.Parenting
import SheepScene.Proofs.Scene.Fostering
import SheepScene.Proofs.Scene.Endings
import SheepScene.Proofs.Scene.Sweeping
import SheepScene.Proofs.Scene.Switchboard
import SheepScene.Proofs.Scene.Inactivity
import SheepScene.Proofs.Scene.Transitions
import SheepScene.Proofs.Geometry.Inverses
import SheepScene.Proofs.Geometry.Rotations
import SheepScene.Proofs.Scene.Matrices
import SheepScene.Proofs.Scene.RoundTrips
import SheepScene.Proofs.Scene.Roofs
import SheepScene.Proofs.Scene.WorldSetters
import SheepScene.Proofs.Scene.Orbits
import SheepScene.Proofs.Scene.Newcomers
import SheepScene.Proofs.Settings.Loading
import SheepScene.Proofs.Scene.Lookups
import SheepScene.Proofs.Scene.Anchors
import SheepScene.Proofs.Scene.Siblings
import SheepScene.Proofs.Scene.Walks
import SheepScene.Proofs.Scene.Climbs
