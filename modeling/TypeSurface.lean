import TypeSurface.Main
import TypeSurface.Source.Catalog
import TypeSurface.Proofs.Hiding
import TypeSurface.Proofs.Traversal
import TypeSurface.Proofs.MethodSources
import TypeSurface.Proofs.Overloads
import TypeSurface.Proofs.Inheritance
import TypeSurface.Proofs.Accents
import TypeSurface.Proofs.BuriedMarks
import TypeSurface.Proofs.MarkedLines
import TypeSurface.Proofs.LineReader
import TypeSurface.Proofs.SmallLetters
import TypeSurface.Proofs.FlattenedNames
import TypeSurface.Proofs.UniqueReading
import TypeSurface.Proofs.Answers
import TypeSurface.Proofs.TypePaths
import TypeSurface.Proofs.Delivery
import TypeSurface.Proofs.AnsweredRequests
import TypeSurface.Proofs.SinkIndependence
import TypeSurface.Proofs.FirstFaults
import TypeSurface.Proofs.References
import TypeSurface.Proofs.Agreement
import TypeSurface.Proofs.MemberTypes
import TypeSurface.Proofs.Undescribable
import TypeSurface.Proofs.CutDescriptions
import TypeSurface.Proofs.EndlessArguments
import TypeSurface.Proofs.Sessions
import TypeSurface.Proofs.MostDerived
import TypeSurface.Proofs.Offences
import TypeSurface.Proofs.RenamedParameters
import TypeSurface.Proofs.ReferenceMarks
import TypeSurface.Proofs.ExtendedInterfaces
import TypeSurface.Proofs.ListedMembers
import TypeSurface.Proofs.FittingBytes
import TypeSurface.Proofs.SpelledSignatures
import TypeSurface.Proofs.BaseChains
import TypeSurface.Proofs.EqualAnswers
import TypeSurface.Proofs.DroppedReferences
import TypeSurface.Proofs.ParameterNumbers
import TypeSurface.Proofs.Unannotated
import TypeSurface.Proofs.ParameterAnnotations
import TypeSurface.Proofs.EndingListings
