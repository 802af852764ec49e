/-!
# Log entries

What the engine reports while it works: a level, the component that speaks, a message, and the facts
about the subject that go with it.
-/

namespace ContractLens.Log

/-- How urgent an entry is. -/
inductive Level where
  /-- Detail for developers. -/
  | debug
  /-- Progress. -/
  | info
  /-- Something went wrong and was dealt with. -/
  | warning
  deriving DecidableEq

/-- The word for a level. -/
def Level.word : Level → String
  | debug => "DEBUG"
  | info => "INFO"
  | warning => "WARNING"

/-- The component that speaks. -/
inductive Component where
  /-- The parser of source sets. -/
  | parser
  /-- The resolution of imports. -/
  | imports
  /-- The libraries that imports are looked up in. -/
  | libraries
  /-- The analysis of bytecode. -/
  | bytecode
  /-- The cache of finished records. -/
  | cache
  /-- The fetching of contracts. -/
  | fetcher
  /-- The analysis as a whole. -/
  | engine
  deriving DecidableEq

/-- The name of the logger a component writes to. -/
def Component.logger : Component → String
  | parser => "owdit.analyzer.source_parser"
  | imports => "owdit.analyzer.import_resolver"
  | libraries => "owdit.analyzer.library_registry"
  | bytecode => "owdit.analyzer.bytecode_analyzer"
  | cache => "owdit.core.cache"
  | fetcher => "owdit.ingestion.contract_source"
  | engine => "owdit.pipeline.orchestrator"

/-- The facts about its subject that go with an entry. -/
structure Context where
  /-- The address of the contract. -/
  address : Option String := none
  /-- The chain the contract is deployed on. -/
  chainId : Option Int := none
  /-- The path of the import. -/
  importPath : Option String := none
  /-- The key of the cached record. -/
  cacheKey : Option String := none
  deriving DecidableEq

/-- One report. -/
structure Entry where
  /-- How urgent it is. -/
  level : Level
  /-- Who speaks. -/
  component : Component
  /-- What is said. -/
  message : String
  /-- The facts that go with it. -/
  context : Context := {}
  deriving DecidableEq

end ContractLens.Log
