import ContractLens.Schema.Read
/-!
# Names of members

The members of all records, each with its written name in camel case and its plain name.
-/

namespace ContractLens.Names

open Schema

/-- The member path. -/
def path : FieldName := ⟨"path", "path"⟩

/-- The member content. -/
def content : FieldName := ⟨"content", "content"⟩

/-- The member kind. -/
def kind : FieldName := ⟨"kind", "kind"⟩

/-- The member address. -/
def address : FieldName := ⟨"address", "address"⟩

/-- The member chainId. -/
def chainId : FieldName := ⟨"chainId", "chain_id"⟩

/-- The member contractName. -/
def contractName : FieldName := ⟨"contractName", "contract_name"⟩

/-- The member compilerVersion. -/
def compilerVersion : FieldName := ⟨"compilerVersion", "compiler_version"⟩

/-- The member files. -/
def files : FieldName := ⟨"files", "files"⟩

/-- The member abi. -/
def abi : FieldName := ⟨"abi", "abi"⟩

/-- The member bytecodeHex. -/
def bytecodeHex : FieldName := ⟨"bytecodeHex", "bytecode_hex"⟩

/-- The member name. -/
def name : FieldName := ⟨"name", "name"⟩

/-- The member functions. -/
def functions : FieldName := ⟨"functions", "functions"⟩

/-- The member events. -/
def events : FieldName := ⟨"events", "events"⟩

/-- The member modifiers. -/
def modifiers : FieldName := ⟨"modifiers", "modifiers"⟩

/-- The member isAbstract. -/
def isAbstract : FieldName := ⟨"isAbstract", "is_abstract"⟩

/-- The member inherits. -/
def inherits : FieldName := ⟨"inherits", "inherits"⟩

/-- The member lineCount. -/
def lineCount : FieldName := ⟨"lineCount", "line_count"⟩

/-- The member calls. -/
def calls : FieldName := ⟨"calls", "calls"⟩

/-- The member calledBy. -/
def calledBy : FieldName := ⟨"calledBy", "called_by"⟩

/-- The member contracts. -/
def contracts : FieldName := ⟨"contracts", "contracts"⟩

/-- The member callGraph. -/
def callGraph : FieldName := ⟨"callGraph", "call_graph"⟩

/-- The member mainContract. -/
def mainContract : FieldName := ⟨"mainContract", "main_contract"⟩

/-- The member totalLines. -/
def totalLines : FieldName := ⟨"totalLines", "total_lines"⟩

/-- The member totalFunctions. -/
def totalFunctions : FieldName := ⟨"totalFunctions", "total_functions"⟩

/-- The member totalEvents. -/
def totalEvents : FieldName := ⟨"totalEvents", "total_events"⟩

/-- The member fileCount. -/
def fileCount : FieldName := ⟨"fileCount", "file_count"⟩

/-- The member contractCount. -/
def contractCount : FieldName := ⟨"contractCount", "contract_count"⟩

/-- The member functionCount. -/
def functionCount : FieldName := ⟨"functionCount", "function_count"⟩

/-- The member hasModifiers. -/
def hasModifiers : FieldName := ⟨"hasModifiers", "has_modifiers"⟩

/-- The member hasEvents. -/
def hasEvents : FieldName := ⟨"hasEvents", "has_events"⟩

/-- The member hasStructs. -/
def hasStructs : FieldName := ⟨"hasStructs", "has_structs"⟩

/-- The member hasEnums. -/
def hasEnums : FieldName := ⟨"hasEnums", "has_enums"⟩

/-- The member hasLibraries. -/
def hasLibraries : FieldName := ⟨"hasLibraries", "has_libraries"⟩

/-- The member hasInterfaces. -/
def hasInterfaces : FieldName := ⟨"hasInterfaces", "has_interfaces"⟩

/-- The member hasDelegateCall. -/
def hasDelegateCall : FieldName := ⟨"hasDelegateCall", "has_delegate_call"⟩

/-- The member hasSelfDestruct. -/
def hasSelfDestruct : FieldName := ⟨"hasSelfDestruct", "has_self_destruct"⟩

/-- The member hasAssembly. -/
def hasAssembly : FieldName := ⟨"hasAssembly", "has_assembly"⟩

/-- The member hasUnchecked. -/
def hasUnchecked : FieldName := ⟨"hasUnchecked", "has_unchecked"⟩

/-- The member hasLowLevelCall. -/
def hasLowLevelCall : FieldName := ⟨"hasLowLevelCall", "has_low_level_call"⟩

/-- The member hasTransfer. -/
def hasTransfer : FieldName := ⟨"hasTransfer", "has_transfer"⟩

/-- The member hasReentrancyGuard. -/
def hasReentrancyGuard : FieldName := ⟨"hasReentrancyGuard", "has_reentrancy_guard"⟩

/-- The member hasOwnable. -/
def hasOwnable : FieldName := ⟨"hasOwnable", "has_ownable"⟩

/-- The member hasPausable. -/
def hasPausable : FieldName := ⟨"hasPausable", "has_pausable"⟩

/-- The member type. -/
def type : FieldName := ⟨"type", "type"⟩

/-- The member resolved. -/
def resolved : FieldName := ⟨"resolved", "resolved"⟩

/-- The member error. -/
def error : FieldName := ⟨"error", "error"⟩

/-- The member missing. -/
def missing : FieldName := ⟨"missing", "missing"⟩

/-- The member autoFetched. -/
def autoFetched : FieldName := ⟨"autoFetched", "auto_fetched"⟩

/-- The member selector. -/
def selector : FieldName := ⟨"selector", "selector"⟩

/-- The member signature. -/
def signature : FieldName := ⟨"signature", "signature"⟩

/-- The member inputs. -/
def inputs : FieldName := ⟨"inputs", "inputs"⟩

/-- The member severity. -/
def severity : FieldName := ⟨"severity", "severity"⟩

/-- The member risks. -/
def risks : FieldName := ⟨"risks", "risks"⟩

/-- The member recommendations. -/
def recommendations : FieldName := ⟨"recommendations", "recommendations"⟩

/-- The member bytecode. -/
def bytecode : FieldName := ⟨"bytecode", "bytecode"⟩

/-- The member isContract. -/
def isContract : FieldName := ⟨"isContract", "is_contract"⟩

/-- The member functionSelectors. -/
def functionSelectors : FieldName := ⟨"functionSelectors", "function_selectors"⟩

/-- The member opcodeCounters. -/
def opcodeCounters : FieldName := ⟨"opcodeCounters", "opcode_counters"⟩

/-- The member contractType. -/
def contractType : FieldName := ⟨"contractType", "contract_type"⟩

/-- The member riskAssessment. -/
def riskAssessment : FieldName := ⟨"riskAssessment", "risk_assessment"⟩

/-- The member estimatedComplexity. -/
def estimatedComplexity : FieldName := ⟨"estimatedComplexity", "estimated_complexity"⟩

/-- The member eip1167. -/
def eip1167 : FieldName := ⟨"eip1167", "eip1167"⟩

/-- The member verified. -/
def verified : FieldName := ⟨"verified", "verified"⟩

/-- The member parsed. -/
def parsed : FieldName := ⟨"parsed", "parsed"⟩

/-- The member imports. -/
def imports : FieldName := ⟨"imports", "imports"⟩

/-- The member dependencyGraph. -/
def dependencyGraph : FieldName := ⟨"dependencyGraph", "dependency_graph"⟩

/-- The member features. -/
def features : FieldName := ⟨"features", "features"⟩

/-- The member bytecodeAnalysis. -/
def bytecodeAnalysis : FieldName := ⟨"bytecodeAnalysis", "bytecode_analysis"⟩

/-- The member proxy. -/
def proxy : FieldName := ⟨"proxy", "proxy"⟩

/-- The member isUpgradeable. -/
def isUpgradeable : FieldName := ⟨"isUpgradeable", "is_upgradeable"⟩

/-- The member cacheEligible. -/
def cacheEligible : FieldName := ⟨"cacheEligible", "cache_eligible"⟩

/-- The member analyzedAt. -/
def analyzedAt : FieldName := ⟨"analyzedAt", "analyzed_at"⟩

/-- The member analysisId. -/
def analysisId : FieldName := ⟨"analysisId", "analysis_id"⟩

end ContractLens.Names
