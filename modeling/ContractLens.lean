import ContractLens.Source.Features
import ContractLens.Source.Upgradeable
import ContractLens.Bytecode.Report
import ContractLens.Import.Graph
import ContractLens.Import.Resolve
import ContractLens.Calendar.Reader
import ContractLens.Analysis.Analyze
import ContractLens.Analysis.Lookup
import ContractLens.Calendar.Clock
import ContractLens.Cli.Help
import ContractLens.Cli.Paint
import ContractLens.Cli.Render
import ContractLens.Cli.Run
import ContractLens.Proofs.Analysis.Desk
import ContractLens.Proofs.Analysis.ReadBack
import ContractLens.Proofs.Analysis.Veto
import ContractLens.Proofs.Analysis.Analysed
import ContractLens.Proofs.Analysis.ReadThrough
import ContractLens.Proofs.Analysis.Requests
import ContractLens.Proofs.Analysis.Refused
import ContractLens.Proofs.Bytecode.Appended
import ContractLens.Proofs.Bytecode.Spelling
import ContractLens.Proofs.Bytecode.Recovered
import ContractLens.Proofs.Bytecode.Findings
import ContractLens.Proofs.Bytecode.MinimalProxy
import ContractLens.Proofs.Import.Isolation
import ContractLens.Proofs.Import.Growth
import ContractLens.Proofs.Import.Graph
import ContractLens.Proofs.Import.Printer
import ContractLens.Proofs.Source.Segments
import ContractLens.Proofs.Source.Calls
import ContractLens.Proofs.Source.Agreement
import ContractLens.Proofs.Source.Order
import ContractLens.Proofs.Source.Sites
import ContractLens.Proofs.Source.Parts
import ContractLens.Proofs.Upgradeable.Imports
import ContractLens.Proofs.Upgradeable.Bases
import ContractLens.Proofs.Upgradeable.Names
import ContractLens.Proofs.Upgradeable.Parts
import ContractLens.Proofs.Upgradeable.Paths
import ContractLens.Proofs.Fetch.Degrade
import ContractLens.Proofs.Fetch.Disclosure
import ContractLens.Proofs.Fetch.Retry
import ContractLens.Proofs.Cache.Interleaving
import ContractLens.Proofs.Cache.Recent
import ContractLens.Proofs.Cache.Resilience
import ContractLens.Proofs.Cache.KeySpace
import ContractLens.Proofs.Cache.Limit
import ContractLens.Proofs.Cli.Printed
import ContractLens.Proofs.Analysis.Dumped
import ContractLens.Proofs.Source.MainContract
import ContractLens.Proofs.Import.Chain
import ContractLens.Proofs.Fetch.StandardJson
import ContractLens.Proofs.Number.Nearest
import ContractLens.Proofs.Bytecode.Graded
import ContractLens.Proofs.Analysis.Nesting
