import BoostUdp.ClientRun
import BoostUdp.Codec
import BoostUdp.CountCap
import BoostUdp.DatagramCuts
import BoostUdp.Delivery
import BoostUdp.DetectedMss
import BoostUdp.EndToEnd
import BoostUdp.ErrorDetection
import BoostUdp.FragmentCount
import BoostUdp.HeaderHunt
import BoostUdp.HeaderOnly
import BoostUdp.Isolation
import BoostUdp.LossyDelivery
import BoostUdp.LostCount
import BoostUdp.MemorySafety
import BoostUdp.OptionRendering
import BoostUdp.OptionOrder
import BoostUdp.PayloadDamage
import BoostUdp.ReceivePaths
import BoostUdp.ReceiveTimeout
import BoostUdp.Resynchronisation
import BoostUdp.SalvageDepth
import BoostUdp.SalvageSearch
import BoostUdp.SendBatches
import BoostUdp.SessionTotal
import BoostUdp.TestSender
import BoostUdp.Truncation
import BoostUdp.Uso.ClientSocket
import BoostUdp.Uso.ReceiveMsg
import BoostUdp.Uso.SendCalls
import BoostUdp.Uso.Served
import BoostUdp.UsoSend
