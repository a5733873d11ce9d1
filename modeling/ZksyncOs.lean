import ZksyncOs.Lib.DropWhile
import ZksyncOs.Lib.SortedMap
import ZksyncOs.Lib.SnapshotStack
import ZksyncOs.Lib.BigEndian
import ZksyncOs.System.Errors
import ZksyncOs.System.Types
import ZksyncOs.System.Resources
import ZksyncOs.HistoryMap.Basic
import ZksyncOs.HistoryMap.Invariant
import ZksyncOs.HistoryMap.Refinement
import ZksyncOs.CommonStructs.CacheRecord
import ZksyncOs.CommonStructs.PubdataCompression
import ZksyncOs.CommonStructs.PreimagesPublication
import ZksyncOs.FlatStorage.PreimageCache
import ZksyncOs.Lib.Except
import ZksyncOs.FlatStorage.CostModel
import ZksyncOs.FlatStorage.StorageCache
import ZksyncOs.FlatStorage.AccountProperties
import ZksyncOs.FlatStorage.AccountCache
import ZksyncOs.FlatStorage.StorageModel
import ZksyncOs.Lib.Checked
import ZksyncOs.Bootloader.Transaction
import ZksyncOs.Bootloader.GasHelpers
import ZksyncOs.Bootloader.Decoder
import ZksyncOs.Bootloader.Rlp
import ZksyncOs.Bootloader.AccessList
import ZksyncOs.Bootloader.TxHash
import ZksyncOs.Bootloader.TxHashEncoding
import ZksyncOs.Evm.Create
import ZksyncOs.FlatStorage.AccessCosts
import ZksyncOs.Lib.Limbs
import ZksyncOs.Evm.YellowPaper
import ZksyncOs.Evm.Words
import ZksyncOs.Evm.Arithmetic
import ZksyncOs.Evm.Stack
import ZksyncOs.Lib.Chunks
import ZksyncOs.Memory.StackTrait
import ZksyncOs.ProofRunning.ListVec
import ZksyncOs.Lib.ListStack
import ZksyncOs.Lib.Boundaries
import ZksyncOs.Evm.Jumpdest
import ZksyncOs.CommonStructs.LogsStorage
import ZksyncOs.Lib.Keccak
import ZksyncOs.Lib.MerkleTree
import ZksyncOs.Bootloader.GasRefund
import ZksyncOs.System.ModExp
import ZksyncOs.KvMarkers.Codecs
import ZksyncOs.FlatStorage.Codecs
import ZksyncOs.Lib.LinkedChain
import ZksyncOs.HistoryMap.Linked
import ZksyncOs.HistoryMap.LinkedElement
import ZksyncOs.HistoryMap.LinkedMap
import ZksyncOs.Evm.Heap
import ZksyncOs.Evm.HeapRefinement
import ZksyncOs.Evm.InterpreterStack
