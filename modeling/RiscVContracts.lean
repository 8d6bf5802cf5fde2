import RiscVContracts.Pvm.Benchmarks
import RiscVContracts.Pvm.Bytecode
import RiscVContracts.Pvm.EvmRunner
import RiscVContracts.Pvm.Fibonacci
import RiscVContracts.Pvm.MemoryFaults
import RiscVContracts.Uniswap.Agreement
import RiscVContracts.Uniswap.Allowances
import RiscVContracts.Uniswap.Clock
import RiscVContracts.Uniswap.Custody
import RiscVContracts.Uniswap.Deployment
import RiscVContracts.Uniswap.Halves
import RiscVContracts.Uniswap.HashIndependence
import RiscVContracts.Uniswap.LostUpdates
import RiscVContracts.Uniswap.Network
import RiscVContracts.Uniswap.Payouts
import RiscVContracts.Uniswap.RoundTrip
import RiscVContracts.Uniswap.SplitBurn
import RiscVContracts.Uniswap.StorageLayout
import RiscVContracts.Uniswap.SwapPrice
import RiscVContracts.Uniswap.Timestamps
import RiscVContracts.Uniswap.TokenSetup
import RiscVContracts.Uniswap.Transfers
import RiscVContracts.Uniswap.Widths
