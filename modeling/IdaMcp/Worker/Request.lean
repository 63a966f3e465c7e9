import IdaMcp.Error

namespace IdaMcp.Worker

inductive Operation
  | loadDebugInfo
  | debugLaunch
  | debugAttach
  | debugModules
  | debugStop
  | analysisStatus
  | dscLoadImage
  | dscLoadRegion
  | listFunctions
  | resolveFunction
  | disasmByName
  | disasm
  | renderRange
  | decompile
  | listLvars
  | renameLvar
  | setLvarType
  | listPseudocodeComments
  | setPseudocodeComment
  | segments
  | strings
  | localTypes
  | declareType
  | applyTypes
  | inferTypes
  | addrInfo
  | functionAt
  | disasmFunctionAt
  | declareStack
  | deleteStack
  | stackFrame
  | structs
  | structInfo
  | readStruct
  | xRefsTo
  | xRefsFrom
  | xRefsToField
  | imports
  | exports
  | entrypoints
  | luminaLookup
  | luminaApply
  | getBytes
  | setComments
  | rename
  | patchBytes
  | listPatches
  | patchAsm
  | basicBlocks
  | callees
  | callers
  | idbMeta
  | lookupFunctions
  | listGlobals
  | analyzeStrings
  | findString
  | xrefsToString
  | analyzeFuncs
  | findBytes
  | searchText
  | searchImm
  | findInsns
  | findInsnOperands
  | saveDatabase
  | readInt
  | getString
  | getGlobalValue
  | findPaths
  | callGraph
  | xrefMatrix
  | exportFuncs
  | pseudocodeAt
  | runScript
deriving DecidableEq, Repr

structure Arm where
  /-- the label of its crash guard -/
  guard : Option String
  admits : Bool
  bound : Bool
  cancellable : Bool

def unguarded : Arm := { guard := none, admits := false, bound := false, cancellable := false }

def guarded (label : String) : Arm := { unguarded with guard := some label }

def Operation.arm : Operation → Arm
  | .loadDebugInfo => guarded "handle_load_debug_info"
  | .debugLaunch => { guarded "debug_launch" with admits := true }
  | .debugAttach => { guarded "debug_attach" with admits := true }
  | .debugModules => guarded "debug_modules"
  | .debugStop => { guarded "debug_stop" with admits := true }
  | .analysisStatus => { guarded "handle_analysis_status" with bound := true }
  | .dscLoadImage => { guarded "handle_dsc_load_image" with admits := true, bound := true }
  | .dscLoadRegion => { guarded "handle_dsc_load_region" with admits := true }
  | .listFunctions => unguarded
  | .resolveFunction => guarded "handle_resolve_function"
  | .disasmByName => guarded "handle_disasm_by_name"
  | .disasm => guarded "handle_disasm"
  | .renderRange => guarded "handle_render_range"
  | .decompile => guarded "handle_decompile"
  | .listLvars => guarded "handle_list_lvars"
  | .renameLvar => { guarded "handle_rename_lvar" with admits := true }
  | .setLvarType => { guarded "handle_set_lvar_type" with admits := true }
  | .listPseudocodeComments => guarded "handle_list_pseudocode_comments"
  | .setPseudocodeComment => { guarded "handle_set_pseudocode_comment" with admits := true }
  | .segments => guarded "handle_segments"
  | .strings => guarded "handle_strings"
  | .localTypes => guarded "handle_local_types"
  | .declareType => guarded "handle_declare_type"
  | .applyTypes => guarded "handle_apply_types"
  | .inferTypes => guarded "handle_infer_types"
  | .addrInfo => unguarded
  | .functionAt => unguarded
  | .disasmFunctionAt => unguarded
  | .declareStack => guarded "handle_declare_stack"
  | .deleteStack => guarded "handle_delete_stack"
  | .stackFrame => guarded "handle_stack_frame"
  | .structs => guarded "handle_structs"
  | .structInfo => guarded "handle_struct_info"
  | .readStruct => guarded "handle_read_struct"
  | .xRefsTo => guarded "handle_xrefs_to"
  | .xRefsFrom => guarded "handle_xrefs_from"
  | .xRefsToField => guarded "handle_xrefs_to_field"
  | .imports => guarded "handle_imports"
  | .exports => guarded "handle_exports"
  | .entrypoints => guarded "handle_entrypoints"
  | .luminaLookup => guarded "handle_lumina_lookup"
  | .luminaApply => guarded "handle_lumina_apply"
  | .getBytes => guarded "handle_get_bytes"
  | .setComments => guarded "handle_set_comments"
  | .rename => guarded "handle_rename"
  | .patchBytes => guarded "handle_patch_bytes"
  | .listPatches => guarded "handle_list_patches"
  | .patchAsm => guarded "handle_patch_asm"
  | .basicBlocks => guarded "handle_basic_blocks"
  | .callees => guarded "handle_callees"
  | .callers => guarded "handle_callers"
  | .idbMeta => guarded "handle_idb_meta"
  | .lookupFunctions => guarded "handle_lookup_funcs"
  | .listGlobals => guarded "handle_list_globals"
  | .analyzeStrings => guarded "handle_analyze_strings"
  | .findString => guarded "handle_find_string"
  | .xrefsToString => guarded "handle_xrefs_to_string"
  | .analyzeFuncs => { guarded "handle_analyze_funcs" with admits := true, cancellable := true }
  | .findBytes => guarded "handle_find_bytes"
  | .searchText => guarded "handle_search_text"
  | .searchImm => guarded "handle_search_imm"
  | .findInsns => guarded "handle_find_insns"
  | .findInsnOperands => guarded "handle_find_insn_operands"
  | .saveDatabase => guarded "handle_save_database"
  | .readInt => guarded "handle_read_int"
  | .getString => guarded "handle_get_string"
  | .getGlobalValue => guarded "handle_get_global_value"
  | .findPaths => guarded "handle_find_paths"
  | .callGraph => guarded "handle_callgraph"
  | .xrefMatrix => guarded "handle_xref_matrix"
  | .exportFuncs => guarded "handle_list_functions"
  | .pseudocodeAt => guarded "handle_pseudocode_at"
  | .runScript => { guarded "handle_run_script" with admits := true, cancellable := true }

def Operation.debugs : Operation → Bool
  | debugLaunch | debugAttach | debugModules | debugStop => true
  | _ => false

structure RawBinaryTarget where
  processor : Option String
  bitness : Option ℕ
  baseAddress : Option UInt64
  entryPoint : Option UInt64

def RawBinaryTarget.isEmpty (target : RawBinaryTarget) : Bool :=
  target.processor.isNone && target.bitness.isNone && target.baseAddress.isNone &&
    target.entryPoint.isNone

structure OpenRequest where
  path : String
  loadDebugInfo : Bool
  force : Bool
  rebuild : Bool
  autoAnalyse : Bool
  rawTarget : RawBinaryTarget
  idbOut : Option String

inductive Request
  | open (request : OpenRequest)
  | close
  | closeIfGeneration (generation : ℕ)
  | operation (operation : Operation) (expected : Option ℕ)
  | shutdown

end IdaMcp.Worker
