import BeanDispatch.Catalog.Json
import BeanDispatch.ClassTable.Inspect
import BeanDispatch.Descriptor.Json
import BeanDispatch.Introspection.Builder
import BeanDispatch.Introspection.Inspect
import BeanDispatch.Introspection.Scripted
import BeanDispatch.Machine.Trace
import BeanDispatch.Proofs.CallPaths
import BeanDispatch.Roster
import BeanDispatch.Proofs.FieldAccess
import BeanDispatch.Proofs.FieldStore
import BeanDispatch.Proofs.CaseCode
import BeanDispatch.Proofs.EmissionFailure
import BeanDispatch.Proofs.BeanFields
import BeanDispatch.Proofs.BeanEffects
import BeanDispatch.Proofs.BeanCopy
import BeanDispatch.Proofs.HeapTyping
import BeanDispatch.Proofs.Subtyping
import BeanDispatch.Proofs.CaseCoverage
import BeanDispatch.Proofs.RecordedIndices
import BeanDispatch.Proofs.HandleDispatch
import BeanDispatch.Proofs.CatalogGrowth
import BeanDispatch.Proofs.Supertypes
import BeanDispatch.Proofs.Substitution
import BeanDispatch.Proofs.StackShape
import BeanDispatch.Proofs.StackSafety
import BeanDispatch.Proofs.JsonText
import BeanDispatch.Proofs.Decoding
import BeanDispatch.Proofs.CatalogText
import BeanDispatch.Proofs.TableGrowth
import BeanDispatch.Proofs.KnownClasses
import BeanDispatch.Proofs.CallStages
import BeanDispatch.Proofs.DispatchedCalls
import BeanDispatch.Proofs.ResultTypes
import BeanDispatch.Proofs.ArgumentCounts
import BeanDispatch.Proofs.ValueChecks
import BeanDispatch.Proofs.ConstructorHistory
import BeanDispatch.Proofs.ConstructorOrder
import BeanDispatch.Proofs.Instantiation
import BeanDispatch.Proofs.SearchOrder
import BeanDispatch.Proofs.DefaultBodies
import BeanDispatch.Proofs.InstanceLayout
import BeanDispatch.Proofs.MethodSearch
import BeanDispatch.Proofs.AcceptedCode
import BeanDispatch.Proofs.FiniteRuns
import BeanDispatch.Proofs.TableDefects
import BeanDispatch.Proofs.CaseLookup
import BeanDispatch.Proofs.PropertyLookup
import BeanDispatch.Proofs.ConstructorCalls
import BeanDispatch.Emission.Writer
import BeanDispatch.Proofs.DescriptorText
import BeanDispatch.Proofs.LabelPatching
import BeanDispatch.Proofs.TraceLines
import BeanDispatch.Proofs.TracedRuns
import BeanDispatch.Proofs.ScriptEffects
import BeanDispatch.Proofs.ScriptEffects
