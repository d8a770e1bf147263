import UnusedMethods.Main
import UnusedMethods.Proofs.BoundedExpansion
import UnusedMethods.Proofs.Composition
import UnusedMethods.Proofs.CycleBreaking
import UnusedMethods.Proofs.IgnoredBodies
import UnusedMethods.Proofs.LoadOrder
import UnusedMethods.Proofs.MatchModes
import UnusedMethods.Proofs.PackageDirectories
import UnusedMethods.Proofs.ShortDeclarations
import UnusedMethods.Proofs.Untouched
import UnusedMethods.Proofs.VariadicCalls
import UnusedMethods.Proofs.Visits
