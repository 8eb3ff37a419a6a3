import BoxedTypes.LatticeTable
import BoxedTypes.Proofs.Admission
import BoxedTypes.Proofs.FreezeTable
import BoxedTypes.Proofs.OrderLaws
import BoxedTypes.Registry.Seeding
import BoxedTypes.Scalar.Document
import BoxedTypes.Settings.Document
import BoxedTypes.UnionTypes
import BoxedTypes.Proofs.Permanence
import BoxedTypes.Proofs.Meaning
import BoxedTypes.Proofs.HistoryIndependence
import BoxedTypes.Proofs.StringSpelling
import BoxedTypes.Proofs.WordSpelling
import BoxedTypes.Proofs.RecordSpelling
import BoxedTypes.Proofs.SettingsSpelling
import BoxedTypes.Proofs.Consistency
import BoxedTypes.Proofs.LawfulTables
import BoxedTypes.Proofs.FreezeAgain
import BoxedTypes.Proofs.NativeRuns
import BoxedTypes.Proofs.SetOnce
import BoxedTypes.Proofs.JoinOutcome
import BoxedTypes.Proofs.Groupings
import BoxedTypes.Proofs.DeclaredClasses
import BoxedTypes.Proofs.FailedUnions
import BoxedTypes.Proofs.ShownTypes
import BoxedTypes.Proofs.FaithfulDisplay
import BoxedTypes.Proofs.FaithfulDump
import BoxedTypes.Proofs.RefusedKeys
import BoxedTypes.Proofs.ScalarSpelling
import BoxedTypes.Proofs.DeclaredNames
import BoxedTypes.Proofs.HandleLimit
