import Stencil.Calendar
import Stencil.Data.Conversion
import Stencil.Data.Shape
import Stencil.Declaration.Fault
import Stencil.Declaration.HelperFunction
import Stencil.Declaration.Record
import Stencil.Declaration.Token
import Stencil.Declaration.TypePath
import Stencil.Engine
import Stencil.Fault
import Stencil.Helper
import Stencil.Helper.Stock
import Stencil.Helper.Typed
import Stencil.Naming
import Stencil.Number.Binary
import Stencil.Number.Decimal
import Stencil.Number.FloatText
import Stencil.Number.Integer
import Stencil.Number.Power
import Stencil.Number.Shortest
import Stencil.Render
import Stencil.Resolver
import Stencil.Scope
import Stencil.Session
import Stencil.Source
import Stencil.Source.Assets
import Stencil.Source.FilePath
import Stencil.Source.FileTree
import Stencil.Source.Location
import Stencil.Syntax.Node
import Stencil.Syntax.Outline
import Stencil.Syntax.Param
import Stencil.Syntax.Path
import Stencil.Syntax.Scan
import Stencil.Syntax.Tag
import Stencil.Syntax.Word
import Stencil.Table
import Stencil.Template
import Stencil.Text.Blank
import Stencil.Text.Escape
import Stencil.Text.Letter
import Stencil.Text.LetterData
import Stencil.Text.Position
import Stencil.Text.Quoted
import Stencil.Value
import Stencil.Value.Equality
import Stencil.Value.Text
import Stencil.Proofs.BlockGrammar
import Stencil.Proofs.SourceText
import Stencil.Proofs.NodeTree
import Stencil.Proofs.RenderRules
import Stencil.Proofs.Escaping
import Stencil.Proofs.KeptTemplates
import Stencil.Proofs.Plans
import Stencil.Proofs.Accounts
import Stencil.Proofs.Transparency
import Stencil.Proofs.OpenIncludes
import Stencil.Proofs.Regions
import Stencil.Proofs.InlinedNodes
import Stencil.Proofs.Inlining
import Stencil.Proofs.Ending
import Stencil.Proofs.ReadingBack
import Stencil.Proofs.SelfDescription
import Stencil.Proofs.Cells
import Stencil.Proofs.Handles
import Stencil.Proofs.LookupNames
import Stencil.Proofs.LocatedFiles
import Stencil.Proofs.MovedTags
import Stencil.Proofs.LikeNodes
import Stencil.Proofs.Concatenation
import Stencil.Proofs.Rearranged
import Stencil.Proofs.RespelledTags
import Stencil.Proofs.LoadedAssets
import Stencil.Proofs.OrderBlindHelpers
import Stencil.Proofs.EntryOrder
import Stencil.Proofs.ValidNodes
import Stencil.Proofs.TagEnds
import Stencil.Proofs.FaultPlaces
import Stencil.Proofs.WrittenTags
import Stencil.Proofs.LookUps
import Stencil.Proofs.NullAnswers
import Stencil.Proofs.Loops
import Stencil.Proofs.LoopVariables
import Stencil.Proofs.BlocksByHelpers
import Stencil.Proofs.ExactIntegers
import Stencil.Proofs.BoundArguments
import Stencil.Proofs.Ledgers
import Stencil.Proofs.Epochs
import Stencil.Proofs.RegisteredAssets
import Stencil.Proofs.ShapeValues
import Stencil.Proofs.BlindSettings
import Stencil.Proofs.AnonymousRecords
import Stencil.Proofs.IgnoredFields
import Stencil.Proofs.ReachableNames
import Stencil.Proofs.IdentifierNames
import Stencil.Proofs.MemoryTexts
import Stencil.Proofs.PathSpellings
import Stencil.Proofs.FaithfulEscapes
import Stencil.Proofs.StackReader
import Stencil.Proofs.StacksInStep
import Stencil.Proofs.NameSpellings
